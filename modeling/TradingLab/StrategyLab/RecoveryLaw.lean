import TradingLab.StrategyLab.Recovery

/-!
# Cooldown and release of the recovery tracker

Over any sequence of observations each decision is of one of five kinds: it is part
of a cooldown, it waits for the release, it releases, it triggers a cooldown, or it
does none of these. A cooldown is made of the decision that triggers it and those
that follow; the length of a run counts it down.
-/

namespace TradingLab

open Decimal Accounting RiskHistory List

namespace RiskOverlay

open _RiskTracker (lossReached drawdownReached)
open _RecoveryCooldownRiskTracker

/-- An observation with the tracker before and after it. -/
structure Seen where
  before : _RecoveryCooldownRiskTracker
  observation : Observation
  state : ValidationRiskState
  after : _RecoveryCooldownRiskTracker
deriving DecidableEq

namespace Seen

variable (x : Seen)

def Triggers : Prop := x.after.lossStreakTriggerCount ≠ x.before.lossStreakTriggerCount

def Releases : Prop := x.after.cooldownReleaseCount ≠ x.before.cooldownReleaseCount

def Free : Prop := x.after.free x.observation = true

/-- No entry passes the veto. -/
def EntriesBlocked : Prop := ∀ decision veto,
  assessFixedQuantityEntry decision x.state = .ok veto → veto.allowed = false

def Observed : Prop := x.before.observe x.observation = .ok (x.state, x.after)

def losses : ℤ :=
  x.before.streakAfter x.observation x.before.entryEligibilityConsecutiveLosses

end Seen

/-- What a tracker shows at each of a sequence of observations. -/
def observeAll (t : _RecoveryCooldownRiskTracker) :
    List Observation → Except HSLRiskOverlayError (List Seen)
  | [] => return []
  | o :: os => do
      let observed ← t.observe o
      let seen ← observeAll observed.2 os
      return ⟨t, o, observed.1, observed.2⟩ :: seen

/-- Each observation closes one more trade at most. -/
def CloseAtMostOne : ℤ → List Observation → Prop
  | _, [] => True
  | closed, o :: os => (o.closedTrades - closed = 0 ∨ o.closedTrades - closed = 1) ∧
      CloseAtMostOne o.closedTrades os

/-- What the number of decisions left to block says. -/
structure Sound (t : _RecoveryCooldownRiskTracker) : Prop where
  primary : t.cooldownPrimaryDecisions = cooldownDecisions
  nonneg : 0 ≤ t.cooldownRemaining
  le : t.cooldownRemaining ≤ cooldownDecisions
  pending : t.cooldownReleasePending = true → t.cooldownRemaining = 0

namespace Seen

/-- What neither starts nor ends a cooldown. -/
structure Uneventful (x : Seen) : Prop where
  triggers : ¬ x.Triggers
  releases : ¬ x.Releases
  eligible : x.after.entryEligibilityConsecutiveLosses = x.losses

inductive Decision (x : Seen) : Prop
  | cooling (before : 0 < x.before.cooldownRemaining)
      (remaining : x.after.cooldownRemaining = x.before.cooldownRemaining - 1)
      (pending : x.after.cooldownReleasePending = decide (x.after.cooldownRemaining = 0))
      (active : x.state.killSwitchActive = true) (kept : x.Uneventful)
  | waiting (before : x.before.cooldownReleasePending = true) (busy : ¬ x.Free)
      (remaining : x.after.cooldownRemaining = 0) (pending : x.after.cooldownReleasePending = true)
      (active : x.state.killSwitchActive = true) (kept : x.Uneventful)
  | released (before : x.before.cooldownReleasePending = true) (free : x.Free)
      (remaining : x.after.cooldownRemaining = 0) (pending : x.after.cooldownReleasePending = false)
      (inactive : x.state.killSwitchActive = false) (losses : x.state.consecutiveLosses = 0)
      (triggers : ¬ x.Triggers) (releases : x.Releases)
      (eligible : x.after.entryEligibilityConsecutiveLosses = 0)
  | triggered (before : x.before.cooldownRemaining = 0 ∧ x.before.cooldownReleasePending = false)
      (remaining : x.after.cooldownRemaining = cooldownDecisions)
      (pending : x.after.cooldownReleasePending = false) (active : x.state.killSwitchActive = true)
      (streak : RiskPolicy.frozen.maxConsecutiveLosses ≤ x.losses)
      (triggers : x.Triggers) (releases : ¬ x.Releases)
      (eligible : x.after.entryEligibilityConsecutiveLosses = x.losses)
  | quiet (before : x.before.cooldownRemaining = 0 ∧ x.before.cooldownReleasePending = false)
      (remaining : x.after.cooldownRemaining = 0) (pending : x.after.cooldownReleasePending = false)
      (streak : x.losses < RiskPolicy.frozen.maxConsecutiveLosses)
      (kept : x.Uneventful)

variable {x : Seen}

/-- Whatever the cooldown does, the rest of the tracker is as updated. -/
theorem Observed.updated (h : x.Observed) :
    x.after.peak = larger x.before.peak x.observation.equity ∧
    x.after.hardLatched = (x.before.hardLatched ||
      drawdownReached (larger x.before.peak x.observation.equity) x.observation.equity) ∧
    x.after.cooldownPrimaryDecisions = x.before.cooldownPrimaryDecisions ∧
    x.after.cooldownReleaseCount = (x.before._updated x.observation).cooldownReleaseCount ∧
    x.after.entryEligibilityConsecutiveLosses =
      (x.before._updated x.observation).entryEligibilityConsecutiveLosses ∧
    x.after.free x.observation = (x.before._updated x.observation).free x.observation ∧
    x.after.hardLatched = (x.before._updated x.observation).hardLatched ∧
    x.after.sessionBlockActive = (x.before._updated x.observation).sessionBlockActive ∧
    x.after.previousRealizedPnl = x.observation.realized ∧
    x.after.previousClosedTrades = x.observation.closedTrades := by
  obtain ⟨-, -, -, counted, hcounted, hafter⟩ := observe_eq_ok h
  rw [hafter]
  unfold _counted at hcounted
  split at hcounted
  · obtain ⟨-, rfl⟩ := countDown_eq_ok.mp hcounted
    exact ⟨updated_peak, updated_hardLatched, updated_primary, rfl, rfl, rfl, rfl, rfl, rfl, rfl⟩
  · cases hcounted
    exact ⟨updated_peak, updated_hardLatched, updated_primary, rfl, rfl, rfl, rfl, rfl, rfl, rfl⟩

theorem Observed.free_iff (h : x.Observed) :
    x.Free ↔ (x.before._updated x.observation).free x.observation = true := by
  obtain ⟨-, -, -, -, -, hfree, -⟩ := h.updated
  unfold Free
  rw [hfree]

/-- A decision of a cooldown counts it down. -/
theorem Observed.cooling (h : x.Observed) (hs : Sound x.before)
    (hcooling : 0 < x.before.cooldownRemaining) : x.Decision := by
  have hpending : x.before.cooldownReleasePending = false := by
    cases hp : x.before.cooldownReleasePending with
    | false => rfl
    | true =>
      have hzero := hs.pending hp
      omega
  obtain ⟨-, -, hactive, counted, hcounted, hafter⟩ := observe_eq_ok h
  rw [_counted, decide_eq_true hcooling, if_pos rfl] at hcounted
  obtain ⟨-, rfl⟩ := countDown_eq_ok.mp hcounted
  have huntriggered : (x.before._updated x.observation).triggers = false := by
    simp [triggers, updated_remaining, hcooling]
  have hremaining : x.after.cooldownRemaining = x.before.cooldownRemaining - 1 := by
    rw [hafter]
    simp [_trigger, huntriggered, updated_remaining]
  refine .cooling hcooling hremaining ?_ ?_ ⟨?_, ?_, ?_⟩
  · rw [hremaining, hafter]
    simp [_trigger, huntriggered, updated_remaining, updated_pending, hpending]
  · rw [hactive]
    simp [hcooling]
  · rw [Triggers, hafter]
    simp [_trigger, huntriggered, updated_triggerCount]
  · rw [Releases, hafter]
    simp [_trigger, updated_releaseCount, hpending]
  · rw [hafter]
    simp [_trigger, updated_eligible, hpending, losses]

theorem Observed.after_eq (h : x.Observed) (hcooling : ¬ 0 < x.before.cooldownRemaining) :
    x.after = { (x.before._updated x.observation)._trigger with
      previousRealizedPnl := x.observation.realized
      previousClosedTrades := x.observation.closedTrades } := by
  obtain ⟨-, -, -, counted, hcounted, hafter⟩ := observe_eq_ok h
  rw [_counted, decide_eq_false hcooling] at hcounted
  cases hcounted
  exact hafter

/-- Before the release the decision waits for a free account. -/
theorem Observed.pending (h : x.Observed) (hs : Sound x.before)
    (hpending : x.before.cooldownReleasePending = true) : x.Decision := by
  have hzero := hs.pending hpending
  have hafter := h.after_eq (by omega)
  obtain ⟨-, hlosses, hactive, -⟩ := observe_eq_ok h
  have hfree := h.free_iff
  cases hf : (x.before._updated x.observation).free x.observation with
  | false =>
    rw [hf] at hfree
    have huntriggered : (x.before._updated x.observation).triggers = false := by
      simp [triggers, updated_pending, hpending, hf]
    refine .waiting hpending (by simpa using hfree) ?_ ?_ ?_ ⟨?_, ?_, ?_⟩
    · rw [hafter]
      simp [_trigger, huntriggered, updated_remaining, hzero]
    · rw [hafter]
      simp [_trigger, updated_pending, hpending, hf]
    · rw [hactive]
      simp [updated_pending, hpending, hf]
    · rw [Triggers, hafter]
      simp [_trigger, huntriggered, updated_triggerCount]
    · rw [Releases, hafter]
      simp [_trigger, updated_releaseCount, hpending, hf]
    · rw [hafter]
      simp [_trigger, updated_eligible, hpending, hf, losses]
  | true =>
    rw [hf] at hfree
    have heligible : (x.before._updated x.observation).entryEligibilityConsecutiveLosses = 0 := by
      simp [updated_eligible, hpending, hf]
    have huntriggered : (x.before._updated x.observation).triggers = false := by
      simp [triggers, heligible, RiskPolicy.frozen]
    have hopen : (x.before._updated x.observation).hardLatched = false ∧
        (x.before._updated x.observation).sessionBlockActive = false := by
      simp only [_RecoveryCooldownRiskTracker.free, Bool.and_eq_true, Bool.not_eq_true'] at hf
      exact ⟨hf.1.2, hf.2⟩
    refine .released hpending (by simpa using hfree) ?_ ?_ ?_ ?_ ?_ ?_ ?_
    · rw [hafter]
      simp [_trigger, huntriggered, updated_remaining, hzero]
    · rw [hafter]
      simp [_trigger, updated_pending, hf]
    · rw [hactive]
      simp [updated_pending, huntriggered, hopen, hzero, hf]
    · rw [hlosses, heligible]
    · rw [Triggers, hafter]
      simp [_trigger, huntriggered, updated_triggerCount]
    · rw [Releases, hafter]
      simp [_trigger, updated_releaseCount, hpending, hf]
    · rw [hafter]
      exact heligible

/-- With nothing to count or to wait for, the streak decides. -/
theorem Observed.open (h : x.Observed) (hs : Sound x.before) (hzero : x.before.cooldownRemaining = 0)
    (hpending : x.before.cooldownReleasePending = false) : x.Decision := by
  have hafter := h.after_eq (by omega)
  obtain ⟨-, -, hactive, -⟩ := observe_eq_ok h
  have heligible : (x.before._updated x.observation).entryEligibilityConsecutiveLosses =
      x.losses := by
    simp [updated_eligible, hpending, losses]
  have hremaining : (x.before._updated x.observation).cooldownRemaining = 0 := by
    rw [updated_remaining, hzero]
  have hnotPending : (x.before._updated x.observation).cooldownReleasePending = false := by
    simp [updated_pending, hpending]
  have hreleases : ¬ x.Releases := by
    rw [Releases, hafter]
    simp [_trigger, updated_releaseCount, hpending]
  have hafterPending : x.after.cooldownReleasePending = false := by
    rw [hafter]
    exact hnotPending
  have hafterEligible : x.after.entryEligibilityConsecutiveLosses = x.losses := by
    rw [hafter]
    exact heligible
  by_cases hstreak : RiskPolicy.frozen.maxConsecutiveLosses ≤ x.losses
  · have htriggered : (x.before._updated x.observation).triggers = true := by
      simp [triggers, hremaining, hnotPending, heligible, hstreak]
    refine .triggered ⟨hzero, hpending⟩ ?_ hafterPending ?_ hstreak ?_ hreleases hafterEligible
    · rw [hafter]
      simp [_trigger, htriggered, updated_primary, hs.primary]
    · rw [hactive]
      simp [htriggered]
    · rw [Triggers, hafter]
      simp [_trigger, htriggered, updated_triggerCount]
  · have huntriggered : (x.before._updated x.observation).triggers = false := by
      simp [triggers, heligible, hstreak]
    refine .quiet ⟨hzero, hpending⟩ ?_ hafterPending (by omega) ⟨?_, hreleases, hafterEligible⟩
    · rw [hafter]
      simp [_trigger, huntriggered, hremaining]
    · rw [Triggers, hafter]
      simp [_trigger, huntriggered, updated_triggerCount]

theorem Observed.decision (h : x.Observed) (hs : Sound x.before) : x.Decision := by
  by_cases hcooling : 0 < x.before.cooldownRemaining
  · exact h.cooling hs hcooling
  · have hzero : x.before.cooldownRemaining = 0 := by
      have hnonneg := hs.nonneg
      omega
    cases hpending : x.before.cooldownReleasePending with
    | true => exact h.pending hs hpending
    | false => exact h.open hs hzero hpending

theorem Observed.sound (h : x.Observed) (hs : Sound x.before) : Sound x.after := by
  obtain ⟨-, -, hprimary, -⟩ := h.updated
  have hpositive : 0 ≤ cooldownDecisions := by decide
  have hnonneg := hs.nonneg
  have hle := hs.le
  rw [hs.primary] at hprimary
  cases h.decision hs with
  | cooling before remaining pending =>
    refine ⟨hprimary, by omega, by omega, ?_⟩
    rw [pending]
    simp
  | waiting _ _ remaining => exact ⟨hprimary, by omega, by omega, fun _ => remaining⟩
  | released _ _ remaining => exact ⟨hprimary, by omega, by omega, fun _ => remaining⟩
  | triggered _ remaining pending =>
    refine ⟨hprimary, by omega, by omega, ?_⟩
    rw [pending]
    nofun
  | quiet _ remaining => exact ⟨hprimary, by omega, by omega, fun _ => remaining⟩

end Seen

/-- Observations made one after the other. -/
def Runs : _RecoveryCooldownRiskTracker → List Seen → Prop
  | _, [] => True
  | t, x :: xs => x.before = t ∧ x.Observed ∧ Runs x.after xs

/-- The tracker after a run. -/
def endOf : _RecoveryCooldownRiskTracker → List Seen → _RecoveryCooldownRiskTracker
  | t, [] => t
  | _, x :: xs => endOf x.after xs

section Run
variable {t : _RecoveryCooldownRiskTracker} {os : List Observation} {xs ys : List Seen} {x y : Seen}

theorem observeAll_eq_ok (h : observeAll t os = .ok xs) :
    xs.map (fun x => x.observation) = os ∧ Runs t xs := by
  induction os generalizing t xs with
  | nil =>
    cases h
    exact ⟨rfl, trivial⟩
  | cons o os ih =>
    obtain ⟨⟨state, t'⟩, hobserved, h⟩ := bind_eq_ok.mp h
    obtain ⟨seen, hseen, h⟩ := bind_eq_ok.mp h
    cases h
    obtain ⟨hos, hruns⟩ := ih hseen
    exact ⟨by rw [map_cons, hos], rfl, hobserved, hruns⟩

theorem exists_observeAll (h : CloseAtMostOne t.previousClosedTrades os) :
    ∃ xs, observeAll t os = .ok xs := by
  induction os generalizing t with
  | nil => exact ⟨[], rfl⟩
  | cons o os ih =>
    obtain ⟨hfirst, hrest⟩ := h
    obtain ⟨state, t', hobserved⟩ := observe_of_closed hfirst
    have hx : Seen.Observed ⟨t, o, state, t'⟩ := hobserved
    obtain ⟨-, -, -, -, -, -, -, -, -, hclosed⟩ := hx.updated
    have hnext : CloseAtMostOne t'.previousClosedTrades os := by
      rw [hclosed]
      exact hrest
    obtain ⟨seen, hseen⟩ := ih hnext
    refine ⟨⟨t, o, state, t'⟩ :: seen, ?_⟩
    rw [observeAll, hobserved, ok_bind, hseen]
    rfl

theorem runs_append : Runs t (xs ++ ys) ↔ Runs t xs ∧ Runs (endOf t xs) ys := by
  induction xs generalizing t with
  | nil => simp [Runs, endOf]
  | cons x xs ih => simp [Runs, endOf, ih, and_assoc]

@[simp] theorem endOf_append : endOf t (xs ++ ys) = endOf (endOf t xs) ys := by
  induction xs generalizing t with
  | nil => rfl
  | cons x xs ih => exact ih

theorem Runs.sound (h : Runs t xs) (hs : Sound t) : Sound (endOf t xs) := by
  induction xs generalizing t with
  | nil => exact hs
  | cons x xs ih =>
    obtain ⟨rfl, hx, hxs⟩ := h
    exact ih hxs (hx.sound hs)

theorem Runs.split (h : Runs t (xs ++ x :: ys)) (hs : Sound t) :
    Runs t xs ∧ x.before = endOf t xs ∧ x.Observed ∧ Sound x.before ∧ Runs x.after ys := by
  obtain ⟨hxs, hbefore, hx, hys⟩ := runs_append.mp h
  refine ⟨hxs, hbefore, hx, ?_, hys⟩
  rw [hbefore]
  exact hxs.sound hs

/-- While a cooldown lasts its counter is what is left of it. -/
theorem Runs.cooling (h : Runs t xs) (hs : Sound t) (hpending : t.cooldownReleasePending = false)
    (hlength : xs.length ≤ t.cooldownRemaining) (hpos : 0 < t.cooldownRemaining) :
    (∀ x ∈ xs, x.state.killSwitchActive = true ∧ ¬ x.Triggers ∧ ¬ x.Releases) ∧
      (endOf t xs).cooldownRemaining = t.cooldownRemaining - xs.length ∧
      (endOf t xs).cooldownReleasePending = decide (xs.length = t.cooldownRemaining) := by
  induction xs generalizing t with
  | nil =>
    have hne : ¬ 0 = t.cooldownRemaining := by omega
    simp [endOf, hpending, hne]
  | cons x xs ih =>
    obtain ⟨rfl, hx, hxs⟩ := h
    rw [length_cons] at hlength ⊢
    push_cast at hlength ⊢
    cases hx.decision hs with
    | waiting before => simp [hpending] at before
    | released before => simp [hpending] at before
    | triggered before =>
      have hzero := before.1
      omega
    | quiet before =>
      have hzero := before.1
      omega
    | cooling before remaining pending active kept =>
      by_cases hlast : x.after.cooldownRemaining = 0
      · obtain rfl : xs = [] := by
          rw [← length_eq_zero_iff]
          omega
        have hone : x.before.cooldownRemaining = 1 := by omega
        simp [endOf, pending, active, kept.triggers, kept.releases, hlast, hone]
      · have hnot : x.after.cooldownReleasePending = false := by
          rw [pending, decide_eq_false hlast]
        have hafter := (hx.sound hs).nonneg
        obtain ⟨hall, hremaining, hend⟩ := ih hxs (hx.sound hs) hnot (by omega) (by omega)
        refine ⟨?_, ?_, ?_⟩
        · rw [forall_mem_cons]
          exact ⟨⟨active, kept.triggers, kept.releases⟩, hall⟩
        · rw [endOf, hremaining]
          omega
        · rw [endOf, hend, remaining, decide_eq_decide]
          omega

/-- A block waits as long as the account is not free. -/
theorem Runs.waiting (h : Runs t xs) (hs : Sound t) (hpending : t.cooldownReleasePending = true)
    (hbusy : ∀ x ∈ xs, ¬ x.Free) :
    (∀ x ∈ xs, x.state.killSwitchActive = true ∧ ¬ x.Triggers ∧ ¬ x.Releases) ∧
      (endOf t xs).cooldownReleasePending = true := by
  induction xs generalizing t with
  | nil => exact ⟨by simp, hpending⟩
  | cons x xs ih =>
    obtain ⟨rfl, hx, hxs⟩ := h
    rw [forall_mem_cons] at hbusy ⊢
    cases hx.decision hs with
    | cooling before =>
      have hzero := hs.pending hpending
      omega
    | released _ free => exact absurd free hbusy.1
    | triggered before => simp [before.2] at hpending
    | quiet before => simp [before.2] at hpending
    | waiting _ _ _ pending active kept =>
      obtain ⟨hall, hend⟩ := ih hxs (hx.sound hs) pending hbusy.2
      exact ⟨⟨⟨active, kept.triggers, kept.releases⟩, hall⟩, hend⟩

theorem Seen.Observed.of_triggers (h : x.Observed) (hs : Sound x.before) (htriggers : x.Triggers) :
    x.after.cooldownRemaining = cooldownDecisions ∧ x.after.cooldownReleasePending = false ∧
      x.state.killSwitchActive = true ∧ ¬ x.Releases := by
  cases h.decision hs with
  | cooling _ _ _ _ kept => exact absurd htriggers kept.triggers
  | waiting _ _ _ _ _ kept => exact absurd htriggers kept.triggers
  | released _ _ _ _ _ _ triggers => exact absurd htriggers triggers
  | triggered _ remaining pending active _ _ releases =>
    exact ⟨remaining, pending, active, releases⟩
  | quiet _ _ _ _ kept => exact absurd htriggers kept.triggers

theorem Seen.Observed.of_releases (h : x.Observed) (hs : Sound x.before) (hreleases : x.Releases) :
    x.after.entryEligibilityConsecutiveLosses = 0 := by
  cases h.decision hs with
  | cooling _ _ _ _ kept => exact absurd hreleases kept.releases
  | waiting _ _ _ _ _ kept => exact absurd hreleases kept.releases
  | released _ _ _ _ _ _ _ _ eligible => exact eligible
  | triggered _ _ _ _ _ _ releases => exact absurd hreleases releases
  | quiet _ _ _ _ kept => exact absurd hreleases kept.releases

theorem Seen.Observed.of_free (h : x.Observed) (hs : Sound x.before)
    (hpending : x.before.cooldownReleasePending = true) (hfree : x.Free) :
    x.Releases ∧ x.state.killSwitchActive = false ∧ x.state.consecutiveLosses = 0 := by
  cases h.decision hs with
  | cooling before =>
    have hzero := hs.pending hpending
    omega
  | waiting _ busy => exact absurd hfree busy
  | released _ _ _ _ inactive losses _ releases => exact ⟨releases, inactive, losses⟩
  | triggered before => simp [before.2] at hpending
  | quiet before => simp [before.2] at hpending

theorem Runs.peak (h : Runs t xs) :
    (endOf t xs).peak = RiskHistory.peak t.peak (xs.map fun x => x.observation) := by
  induction xs generalizing t with
  | nil => rfl
  | cons x xs ih =>
    obtain ⟨rfl, hx, hxs⟩ := h
    obtain ⟨hpeak, -⟩ := hx.updated
    rw [endOf, ih hxs, hpeak]
    rfl

/-- The equity fell from its peak as far as its limit allows. -/
def DrawdownBreach (initialEquity : Decimal) (os : List Observation) : Prop :=
  ∃ pre o post, os = pre ++ o :: post ∧
    drawdownReached (RiskHistory.peak initialEquity (pre ++ [o])) o.equity = true

theorem Runs.latched (h : Runs t xs) : (endOf t xs).hardLatched = true ↔
    t.hardLatched = true ∨ DrawdownBreach t.peak (xs.map fun x => x.observation) := by
  induction xs using reverseRecOn with
  | nil =>
    simp [endOf, DrawdownBreach]
  | append_singleton xs x ih =>
    obtain ⟨hxs, hbefore, hx, -⟩ := runs_append.mp h
    obtain ⟨-, hlatched, -⟩ := hx.updated
    have hpeak := hxs.peak
    rw [endOf_append, endOf, endOf, hlatched, Bool.or_eq_true, hbefore, ih hxs, hpeak, or_assoc,
      map_append, map_singleton, DrawdownBreach, DrawdownBreach, exists_split_concat,
      peak_concat]

theorem streakAfter_le {last o : Observation} {losses : ℤ}
    (hrealized : t.previousRealizedPnl = last.realized)
    (hclosed : t.previousClosedTrades = last.closedTrades) (hle : losses ≤ streak (os ++ [last])) :
    t.streakAfter o losses ≤ streak (os ++ [last, o]) := by
  have hchange : change (last, o) = t.delta o := by rw [delta, hrealized, change]
  rw [streak_concat, hchange, streakAfter, hclosed]
  by_cases hsame : o.closedTrades = last.closedTrades
  · have hno : ¬ closes (last, o) = true := by simp [closes, hsame]
    rw [if_pos (by omega), if_neg hno]
    exact hle
  · have hyes : closes (last, o) = true := by simp [closes, hsame]
    rw [if_neg (by omega), if_pos hyes]
    split_ifs
    · push_cast
      omega
    · simp

/-- No losing trade counts that was closed before the last release. -/
theorem Runs.eligible_le (h : Runs x.after xs) (hx : x.Observed) (hs : Sound x.after)
    (hzero : x.after.entryEligibilityConsecutiveLosses = 0) :
    ∃ os last, (x :: xs).map (fun x => x.observation) = os ++ [last] ∧
      (endOf x.after xs).previousRealizedPnl = last.realized ∧
      (endOf x.after xs).previousClosedTrades = last.closedTrades ∧
      (endOf x.after xs).entryEligibilityConsecutiveLosses ≤ streak (os ++ [last]) := by
  induction xs using reverseRecOn with
  | nil =>
    obtain ⟨-, -, -, -, -, -, -, -, hrealized, hclosed⟩ := hx.updated
    exact ⟨[], x.observation, rfl, hrealized, hclosed, by simp [endOf, hzero]⟩
  | append_singleton xs y ih =>
    obtain ⟨hxs, hbefore, hy, -, -⟩ := h.split hs
    obtain ⟨os, last, hos, hrealized, hclosed, hle⟩ := ih hxs
    rw [← hbefore] at hrealized hclosed hle
    obtain ⟨-, -, -, -, heligible, -, -, -, hrealized', hclosed'⟩ := hy.updated
    refine ⟨os ++ [last], y.observation, ?_, ?_, ?_, ?_⟩
    · rw [← hos]
      simp
    · rw [endOf_append]
      exact hrealized'
    · rw [endOf_append]
      exact hclosed'
    · have hlosses := streakAfter_le (o := y.observation) hrealized hclosed hle
      rw [endOf_append, endOf, endOf, heligible, updated_eligible]
      split_ifs
      · simp
      · simpa using hlosses

end Run

/-- What holds of every run of the tracker. -/
structure RecoveryLaw (initialEquity : Decimal) (seen : List Seen) : Prop where
  /-- The latch is on from the first breach of the drawdown. -/
  latch : ∀ pre x post, seen = pre ++ x :: post → (x.after.hardLatched = true ↔
    DrawdownBreach initialEquity ((pre ++ [x]).map fun y => y.observation))
  monotone : ∀ pre x mid y post, seen = pre ++ x :: (mid ++ y :: post) →
    x.after.hardLatched = true → y.after.hardLatched = true
  remaining : ∀ x ∈ seen, 0 ≤ x.after.cooldownRemaining ∧ x.after.cooldownRemaining ≤ 24
  /-- A streak as long as its limit is a trigger, unless the one before it still blocks. -/
  trigger : ∀ x ∈ seen, x.Triggers ↔ x.before.cooldownRemaining = 0 ∧
    x.before.cooldownReleasePending = false ∧ RiskPolicy.frozen.maxConsecutiveLosses ≤ x.losses
  /-- A trigger blocks its own decision and the next 24. -/
  blocks : ∀ pre x block post, seen = pre ++ x :: (block ++ post) → x.Triggers →
    block.length ≤ 24 → ∀ y ∈ x :: block, y.EntriesBlocked ∧ ¬ y.Releases
  /-- Then the first decision with a free account is released, and those before it are blocked. -/
  released : ∀ pre x block waiting y post,
    seen = pre ++ x :: (block ++ (waiting ++ y :: post)) → x.Triggers → block.length = 24 →
    (∀ w ∈ waiting, ¬ w.Free) → (∀ w ∈ waiting, w.EntriesBlocked ∧ ¬ w.Releases) ∧
      (y.Free → y.Releases ∧ y.state.killSwitchActive = false ∧ y.state.consecutiveLosses = 0) ∧
      (¬ y.Free → y.EntriesBlocked ∧ ¬ y.Releases)
  /-- A trigger needs as many losing trades as the limit says, all closed since the last release. -/
  streak : ∀ pre x mid y post, seen = pre ++ x :: (mid ++ y :: post) → x.Releases → y.Triggers →
    RiskPolicy.frozen.maxConsecutiveLosses ≤
      RiskHistory.streak ((x :: (mid ++ [y])).map fun z => z.observation)

section Law
variable {t : _RecoveryCooldownRiskTracker} {xs : List Seen} {x y : Seen}

/-- An entry never passes the veto under an active kill switch. -/
theorem not_allowed_of_killSwitchActive {decision : StrategyDecision} {state : ValidationRiskState}
    {policy : RiskPolicy} {veto : EntrySafetyVeto} (hactive : state.killSwitchActive = true)
    (h : assessFixedQuantityEntry decision state policy = .ok veto) : veto.allowed = false := by
  unfold assessFixedQuantityEntry at h
  cases hsetup : decision.setup with
  | none =>
    rw [hsetup] at h
    cases h
  | some setup =>
    rw [hsetup] at h
    obtain ⟨-, h⟩ := raiseIf_bind_eq_ok.mp h
    cases h
    simp [EntrySafetyVeto.allowed, EntryVetoReason.all, EntryVeto.applies, hactive]

theorem Seen.entriesBlocked (h : x.state.killSwitchActive = true) : x.EntriesBlocked :=
  fun _ _ hveto => not_allowed_of_killSwitchActive h hveto

theorem Seen.Observed.triggers_iff (h : x.Observed) (hs : Sound x.before) :
    x.Triggers ↔ x.before.cooldownRemaining = 0 ∧ x.before.cooldownReleasePending = false ∧
      RiskPolicy.frozen.maxConsecutiveLosses ≤ x.losses := by
  cases h.decision hs with
  | cooling before _ _ _ kept => simp [kept.triggers, before.ne']
  | waiting before _ _ _ _ kept => simp [kept.triggers, before]
  | released before _ _ _ _ _ triggers => simp [triggers, before]
  | triggered before _ _ _ streak triggers => simp [triggers, before, streak]
  | quiet before _ _ streak kept => simp [kept.triggers, before, not_le.mpr streak]

/-- After a trigger the cooldown lasts as long as it says. -/
theorem Runs.blocked (h : Runs t xs) (hs : Sound t) (hpending : t.cooldownReleasePending = false)
    (hremaining : t.cooldownRemaining = cooldownDecisions) (hlength : xs.length ≤ 24) :
    ∀ y ∈ xs, y.EntriesBlocked ∧ ¬ y.Releases := by
  have hdecisions : cooldownDecisions = 24 := rfl
  obtain ⟨hall, -⟩ := h.cooling hs hpending (by omega) (by omega)
  intro y hy
  obtain ⟨hactive, -, hreleases⟩ := hall y hy
  exact ⟨y.entriesBlocked hactive, hreleases⟩

theorem Runs.latch_iff (h : Runs t (xs ++ [x])) (hlatched : t.hardLatched = false) :
    x.after.hardLatched = true ↔
      DrawdownBreach t.peak ((xs ++ [x]).map fun y => y.observation) := by
  have hiff := h.latched
  rw [endOf_append, hlatched] at hiff
  simpa [endOf] using hiff

theorem Runs.released {block waiting : List Seen} (h : Runs x.after (block ++ (waiting ++ [y])))
    (hs : Sound x.after) (hremaining : x.after.cooldownRemaining = cooldownDecisions)
    (hpending : x.after.cooldownReleasePending = false) (hlength : block.length = 24)
    (hbusy : ∀ w ∈ waiting, ¬ w.Free) :
    (∀ w ∈ waiting, w.EntriesBlocked ∧ ¬ w.Releases) ∧
      (y.Free → y.Releases ∧ y.state.killSwitchActive = false ∧ y.state.consecutiveLosses = 0) ∧
      (¬ y.Free → y.EntriesBlocked ∧ ¬ y.Releases) := by
  have hdecisions : cooldownDecisions = 24 := rfl
  obtain ⟨hblock, htail⟩ := runs_append.mp h
  obtain ⟨-, -, hend⟩ := hblock.cooling hs hpending (by omega) (by omega)
  rw [hremaining, hlength] at hend
  have hblockSound := hblock.sound hs
  obtain ⟨hwaiting, hbefore, hy, hySound, -⟩ := htail.split hblockSound
  obtain ⟨hall, hstill⟩ := hwaiting.waiting hblockSound hend hbusy
  rw [← hbefore] at hstill
  refine ⟨?_, hy.of_free hySound hstill, ?_⟩
  · intro w hw
    obtain ⟨hactive, -, hreleases⟩ := hall w hw
    exact ⟨w.entriesBlocked hactive, hreleases⟩
  · intro hnot
    have hone : Runs y.before [y] := ⟨rfl, hy, trivial⟩
    obtain ⟨hsingle, -⟩ := hone.waiting hySound hstill (by simpa using hnot)
    obtain ⟨hactive, -, hreleases⟩ := hsingle y (by simp)
    exact ⟨y.entriesBlocked hactive, hreleases⟩

theorem Runs.streak_of_triggers {mid : List Seen} (h : Runs x.after (mid ++ [y])) (hx : x.Observed)
    (hs : Sound x.after) (hzero : x.after.entryEligibilityConsecutiveLosses = 0)
    (htriggers : y.Triggers) : RiskPolicy.frozen.maxConsecutiveLosses ≤
      RiskHistory.streak ((x :: (mid ++ [y])).map fun z => z.observation) := by
  obtain ⟨hmid, hbefore, hy, hySound, -⟩ := h.split hs
  obtain ⟨os, last, hos, hrealized, hclosed, hle⟩ := hmid.eligible_le hx hs hzero
  rw [← hbefore] at hrealized hclosed hle
  have hall : (x :: (mid ++ [y])).map (fun z => z.observation) = os ++ [last, y.observation] := by
    rw [← cons_append, map_append, hos]
    simp
  obtain ⟨-, -, hstreak⟩ := (hy.triggers_iff hySound).mp htriggers
  rw [hall]
  exact hstreak.trans (streakAfter_le hrealized hclosed hle)

theorem Runs.recoveryLaw (h : Runs t xs) (hs : Sound t) (hlatched : t.hardLatched = false) :
    RecoveryLaw t.peak xs := by
  constructor
  · rintro pre x post rfl
    rw [append_cons] at h
    exact (runs_append.mp h).1.latch_iff hlatched
  · rintro pre x mid y post rfl hx
    obtain ⟨-, -, -, -, hrest⟩ := h.split hs
    rw [append_cons] at hrest
    have hiff := (runs_append.mp hrest).1.latched
    rw [endOf_append] at hiff
    exact hiff.mpr (.inl hx)
  · intro x hx
    obtain ⟨pre, post, rfl⟩ := append_of_mem hx
    obtain ⟨-, -, hobserved, hsound, -⟩ := h.split hs
    exact ⟨(hobserved.sound hsound).nonneg, (hobserved.sound hsound).le⟩
  · intro x hx
    obtain ⟨pre, post, rfl⟩ := append_of_mem hx
    obtain ⟨-, -, hobserved, hsound, -⟩ := h.split hs
    exact hobserved.triggers_iff hsound
  · rintro pre x block post rfl htriggers hlength
    obtain ⟨-, -, hobserved, hsound, hrest⟩ := h.split hs
    obtain ⟨hremaining, hpending, hactive, hreleases⟩ := hobserved.of_triggers hsound htriggers
    rw [forall_mem_cons]
    refine ⟨⟨x.entriesBlocked hactive, hreleases⟩, ?_⟩
    exact (runs_append.mp hrest).1.blocked (hobserved.sound hsound) hpending hremaining hlength
  · rintro pre x block waiting y post rfl htriggers hlength hbusy
    obtain ⟨-, -, hobserved, hsound, hrest⟩ := h.split hs
    obtain ⟨hremaining, hpending, -, -⟩ := hobserved.of_triggers hsound htriggers
    rw [append_cons waiting, ← append_assoc] at hrest
    exact (runs_append.mp hrest).1.released (hobserved.sound hsound) hremaining hpending hlength
      hbusy
  · rintro pre x mid y post rfl hreleases htriggers
    obtain ⟨-, -, hobserved, hsound, hrest⟩ := h.split hs
    rw [append_cons] at hrest
    exact (runs_append.mp hrest).1.streak_of_triggers hobserved (hobserved.sound hsound)
      (hobserved.of_releases hsound hreleases) htriggers

end Law

end RiskOverlay

end TradingLab
