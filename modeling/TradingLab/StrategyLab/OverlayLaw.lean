import TradingLab.StrategyLab.Labs
import TradingLab.StrategyLab.RecoveryLaw

/-!
# The latch of the risk overlay

A cell of the risk overlay refuses to enter under a latched drawdown, should the
veto ever let it. It never does: in both arms a latched tracker shows an active
kill switch, and under that the veto allows nothing.
-/

namespace TradingLab

open Decimal RiskOverlay

namespace RiskOverlay

open _RiskTracker (drawdownReached)

theorem drawdownReached_congr {peak peak' equity equity' : Decimal} (hpeak : peak.toRat = peak'.toRat)
    (hequity : equity.toRat = equity'.toRat) :
    drawdownReached peak equity = drawdownReached peak' equity' := by
  have hp : 0 < defaultPrecision := by decide
  have hlimit : (mul defaultPrecision peak _RiskTracker.maxDrawdown).toRat =
      (mul defaultPrecision peak' _RiskTracker.maxDrawdown).toRat := by
    apply toRat_round_congr hp
    rw [toRat_mulExact, toRat_mulExact, hpeak]
  have hdrop : (sub defaultPrecision peak equity).toRat =
      (sub defaultPrecision peak' equity').toRat := by
    apply toRat_round_congr hp
    rw [toRat_addExact, toRat_addExact, toRat_copyNegate, toRat_copyNegate, hpeak, hequity]
  unfold drawdownReached
  rw [decide_eq_decide, le_def, le_def, hlimit, hdrop]

namespace _ReferenceRiskTracker
variable {t t' : _ReferenceRiskTracker} {o : Observation} {state : ValidationRiskState}

theorem drawdown_mem (state : ValidationRiskState) : .drawdownLimit ∈ _thresholdReasons state ↔
    drawdownReached (ofText state.peakEquityQuote) (ofText state.equityQuote) = true := by
  unfold _thresholdReasons
  split_ifs <;> simp_all

theorem killSwitchActive_of_hardLatched
    (hkept : t.hardLatched = true → t.tracker.killSwitchActive = true)
    (h : t.observe o = .ok (state, t')) (hlatched : t'.hardLatched = true) :
    state.killSwitchActive = true ∧ t'.tracker.killSwitchActive = true := by
  unfold observe at h
  obtain ⟨⟨seen, tracker⟩, hobserve, h⟩ := bind_eq_ok.mp h
  cases h
  unfold _RiskTracker.observe at hobserve
  rw [raiseIf_bind_eq_ok] at hobserve
  obtain ⟨-, hobserve⟩ := hobserve
  cases hobserve
  have hdrawdown := (drawdownReached_congr
    (toRat_ofText_trimFraction (larger t.tracker.peak o.equity))
    (toRat_ofText_trimFraction o.equity))
  dsimp only at hlatched ⊢
  rw [Bool.or_eq_true] at hlatched
  rcases hlatched with hbefore | hnow
  · simp [hkept hbefore]
  · rw [Bool.and_eq_true, decide_eq_true_eq, drawdown_mem] at hnow
    have hreached : drawdownReached (larger t.tracker.peak o.equity) o.equity = true := by
      rw [← hdrawdown]
      exact hnow.1
    simp [hreached]

end _ReferenceRiskTracker

end RiskOverlay

namespace StrategyLab

def bypassed : CellError := .lab "hard drawdown latch was bypassed"

/-- What does not raise it. -/
def Unbypassed {α : Type} (x : Except CellError α) : Prop := x ≠ .error bypassed

section Unbypassed
variable {α β ε : Type} {x : Except CellError α}

theorem unbypassed_ok (a : α) : Unbypassed (.ok a) := nofun

theorem Unbypassed.bind (h : Unbypassed x) {f : α → Except CellError β}
    (hf : ∀ a, x = .ok a → Unbypassed (f a)) : Unbypassed (x >>= f) := by
  cases x with
  | ok a => exact hf a rfl
  | error e =>
    intro herror
    cases herror
    exact h rfl

theorem unbypassed_raiseIf {bad : Prop} [Decidable bad] {e : CellError} (h : bad → e ≠ bypassed) :
    Unbypassed (raiseIf bad e) := by
  unfold raiseIf
  split
  · rename_i hbad
    intro herror
    exact h hbad (Except.error.inj herror)
  · exact unbypassed_ok ()

theorem unbypassed_mapError {x : Except ε α} {f : ε → CellError} (h : ∀ e, x = .error e →
    f e ≠ bypassed) : Unbypassed (x.mapError f) := by
  cases x with
  | ok a => exact unbypassed_ok a
  | error e =>
    intro herror
    exact h e rfl (Except.error.inj herror)

theorem unbypassed_foldlM {f : β → α → Except CellError β} (h : ∀ b a, Unbypassed (f b a))
    (as : List α) (b : β) : Unbypassed (as.foldlM f b) := by
  induction as generalizing b with
  | nil => exact unbypassed_ok b
  | cons a as ih =>
    rw [List.foldlM_cons]
    exact (h b a).bind fun c _ => ih c

end Unbypassed

theorem lab_ne_bypassed {message : String} (h : message ≠ "hard drawdown latch was bypassed") :
    CellError.lab message ≠ bypassed := fun he => h (CellError.lab.inj he)

section Overlay
variable (candidate : Ablation.StrategyId) (arm : Arm) {s s' : CellState Overlay}
  {event : Crisis.CrisisEvent} {candle : Candle} {dataset : AcceptedBacktestDataset}

theorem failed_ne_bypassed (message : String) :
    (riskOverlay candidate arm).failed message ≠ bypassed := by
  intro h
  have htext : "HSL-002" ++ " " ++ message = "hard drawdown latch was bypassed" :=
    CellError.lab.inj h
  have hchars := congrArg (fun text => text.toList.head?) htext
  simp at hchars

theorem unbypassed_intent (f : PaperIntent.Fields) : Unbypassed (_intent f) :=
  unbypassed_mapError fun _ _ => by nofun

/-- What a latched tracker keeps. -/
def Tracker.Kept : Tracker → Prop
  | .reference t => t.hardLatched = true → t.tracker.killSwitchActive = true
  | .challenger _ => True

variable {state : ValidationRiskState} {own : Overlay} {decided : Decided Overlay}

theorem Tracker.kept_of_observe {t t' : Tracker} {o : Observation}
    (hkept : t.Kept) (h : t.observe o = .ok (state, t')) :
    t'.Kept ∧ (t'.hardLatched = true → state.killSwitchActive = true) := by
  cases t with
  | reference t =>
    unfold Tracker.observe at h
    obtain ⟨⟨seen, u⟩, hobserve, h⟩ := bind_eq_ok.mp h
    cases h
    have hactive := _ReferenceRiskTracker.killSwitchActive_of_hardLatched hkept
      (mapError_eq_ok.mp hobserve)
    exact ⟨fun hlatched => (hactive hlatched).2, fun hlatched => (hactive hlatched).1⟩
  | challenger t =>
    unfold Tracker.observe at h
    obtain ⟨⟨seen, u⟩, hobserve, h⟩ := bind_eq_ok.mp h
    cases h
    refine ⟨trivial, fun hlatched => ?_⟩
    have hobserved : (⟨t, o, state, u⟩ : Seen).Observed := mapError_eq_ok.mp hobserve
    obtain ⟨-, -, -, -, -, -, hsame, -⟩ := hobserved.updated
    obtain ⟨-, -, hactive, -⟩ :=
      _RecoveryCooldownRiskTracker.observe_eq_ok (mapError_eq_ok.mp hobserve)
    change u.hardLatched = true at hlatched
    rw [hactive, ← hsame]
    simp [hlatched]

theorem Tracker.unbypassed_observe (t : Tracker) (o : Observation) : Unbypassed (t.observe o) := by
  cases t with
  | reference t =>
    exact Unbypassed.bind (unbypassed_mapError fun _ _ => by nofun) fun _ _ => unbypassed_ok _
  | challenger t =>
    refine Unbypassed.bind (unbypassed_mapError ?_) fun _ _ => unbypassed_ok _
    intro e he
    by_cases hclosed : o.closedTrades - t.previousClosedTrades = 0 ∨
        o.closedTrades - t.previousClosedTrades = 1
    · obtain ⟨state, t', hok⟩ := _RecoveryCooldownRiskTracker.observe_of_closed hclosed
      rw [hok] at he
      cases he
    · have hraised : raiseIf (o.closedTrades - t.previousClosedTrades ≠ 0 ∧
          o.closedTrades - t.previousClosedTrades ≠ 1)
          (⟨"HSL-002 close count advanced unexpectedly"⟩ : HSLRiskOverlayError) =
            .error ⟨"HSL-002 close count advanced unexpectedly"⟩ := if_pos (by omega)
      unfold _RecoveryCooldownRiskTracker.observe at he
      dsimp only at he
      rw [hraised] at he
      cases he
      exact lab_ne_bypassed (by decide)

variable {decision : StrategyDecision} {asked : Ask} {counts : Counts}
  {next : LongSetup → Except CellError (PaperIntent × Overlay)}

theorem unbypassed_enter
    (h : own.tracker.hardLatched = true → state.killSwitchActive = true) (setup : LongSetup) :
    Unbypassed (own.enter event decision state setup) := by
  unfold Overlay.enter
  refine (unbypassed_mapError fun _ _ => by nofun).bind ?_
  intro veto hveto
  split
  · rename_i hallowed
    refine Unbypassed.bind ?_ fun _ _ => (unbypassed_intent _).bind fun _ _ => unbypassed_ok _
    apply unbypassed_raiseIf
    intro hlatched
    rw [not_allowed_of_killSwitchActive (h hlatched) (mapError_eq_ok.mp hveto)] at hallowed
    cases hallowed
  · exact (unbypassed_intent _).bind fun _ _ => unbypassed_ok _

theorem unbypassed_choose (h : ∀ setup, Unbypassed (next setup)) :
    Unbypassed (_choose event candle asked counts own next) := by
  unfold _choose
  cases asked with
  | enter setup =>
    dsimp only
    split
    · exact (unbypassed_intent _).bind fun _ _ => unbypassed_ok _
    · exact (h setup).bind fun _ _ => unbypassed_ok _
  | exit => exact (unbypassed_intent _).bind fun _ _ => unbypassed_ok _
  | hold => exact (unbypassed_intent _).bind fun _ _ => unbypassed_ok _

theorem own_of_choose (h : _choose event candle asked counts own next = .ok decided) :
    decided.own = own ∨ ∃ setup intent, next setup = .ok (intent, decided.own) := by
  unfold _choose at h
  cases asked with
  | enter setup =>
    dsimp only at h
    split at h
    · obtain ⟨intent, -, h⟩ := bind_eq_ok.mp h
      cases h
      exact .inl rfl
    · obtain ⟨⟨intent, own'⟩, hnext, h⟩ := bind_eq_ok.mp h
      cases h
      exact .inr ⟨setup, intent, hnext⟩
  | exit =>
    obtain ⟨intent, -, h⟩ := bind_eq_ok.mp h
    cases h
    exact .inl rfl
  | hold =>
    obtain ⟨intent, -, h⟩ := bind_eq_ok.mp h
    cases h
    exact .inl rfl

theorem tracker_of_enter {own' : Overlay} {setup : LongSetup} {intent : PaperIntent}
    (h : own.enter event decision state setup = .ok (intent, own')) :
    own'.tracker = own.tracker := by
  unfold Overlay.enter at h
  obtain ⟨veto, -, h⟩ := bind_eq_ok.mp h
  split at h
  · obtain ⟨-, h⟩ := raiseIf_bind_eq_ok.mp h
    obtain ⟨_, -, h⟩ := bind_eq_ok.mp h
    cases h
    rfl
  · obtain ⟨_, -, h⟩ := bind_eq_ok.mp h
    cases h
    rfl

theorem kept_of_decide (hkept : s.own.tracker.Kept)
    (h : (riskOverlay candidate arm).decide s event candle = .ok decided) :
    decided.own.tracker.Kept := by
  unfold riskOverlay at h
  obtain ⟨o, -, h⟩ := bind_eq_ok.mp h
  obtain ⟨⟨state, tracker⟩, hobserve, h⟩ := bind_eq_ok.mp h
  have hnext := (Tracker.kept_of_observe hkept hobserve).1
  dsimp only at h
  split at h
  · obtain ⟨decision, -, h⟩ := bind_eq_ok.mp h
    rcases own_of_choose h with hown | ⟨setup, intent, henter⟩
    · rw [hown]
      exact hnext
    · rw [tracker_of_enter henter]
      exact hnext
  · obtain ⟨intent, -, h⟩ := bind_eq_ok.mp h
    cases h
    exact hnext

theorem unbypassed_decide (hkept : s.own.tracker.Kept) :
    Unbypassed ((riskOverlay candidate arm).decide s event candle) := by
  unfold riskOverlay
  refine Unbypassed.bind ?_ fun o _ => ?_
  · exact Unbypassed.bind (unbypassed_mapError fun _ _ => by nofun) fun _ _ => unbypassed_ok _
  refine (s.own.tracker.unbypassed_observe o).bind fun observed hobserve => ?_
  obtain ⟨state, tracker⟩ := observed
  have hlatched := (Tracker.kept_of_observe hkept hobserve).2
  dsimp only
  split
  · refine Unbypassed.bind (unbypassed_mapError fun _ _ => by nofun) fun decision _ => ?_
    exact unbypassed_choose fun setup => unbypassed_enter hlatched setup
  · exact (unbypassed_intent _).bind fun _ _ => unbypassed_ok _

theorem unbypassed_settle :
    Unbypassed ((riskOverlay candidate arm).settle s event candle decided) := by
  unfold Lab.settle
  refine Unbypassed.bind (unbypassed_mapError fun _ _ => by nofun) fun filled _ => ?_
  refine Unbypassed.bind (unbypassed_foldlM ?_ _ _) fun kept _ => ?_
  · intro kept fill
    unfold Lab.account
    split
    · refine Unbypassed.bind (unbypassed_raiseIf fun _ => ?_) fun _ _ => unbypassed_ok _
      exact failed_ne_bypassed candidate arm _
    · split
      · intro h
        exact failed_ne_bypassed candidate arm _ (Except.error.inj h)
      · exact unbypassed_ok _
  refine Unbypassed.bind ?_ fun active _ => ?_
  · unfold Lab.activeSetup
    split
    · exact unbypassed_ok _
    split
    · split
      · exact unbypassed_ok _
      split
      · intro h
        exact failed_ne_bypassed candidate arm _ (Except.error.inj h)
      · exact unbypassed_ok _
    · exact unbypassed_ok _
  · exact Unbypassed.bind (unbypassed_mapError fun _ _ => by nofun) fun _ _ => unbypassed_ok _

theorem unbypassed_fillCandle :
    Unbypassed ((riskOverlay candidate arm).fillCandle dataset event) := by
  unfold Lab.fillCandle
  split
  · exact unbypassed_ok _
  · refine Unbypassed.bind (unbypassed_raiseIf fun _ => ?_) fun _ _ => ?_
    · exact failed_ne_bypassed candidate arm _
    refine Unbypassed.bind (unbypassed_raiseIf fun _ => ?_) fun _ _ => unbypassed_ok _
    exact failed_ne_bypassed candidate arm _

/-- One event of a cell. -/
theorem unbypassed_step (hkept : s.own.tracker.Kept) :
    Unbypassed ((riskOverlay candidate arm).step dataset s event) ∧
      ∀ s', (riskOverlay candidate arm).step dataset s event = .ok s' → s'.own.tracker.Kept := by
  unfold Lab.step
  constructor
  · refine Unbypassed.bind (unbypassed_fillCandle candidate arm) fun filled _ => ?_
    cases filled with
    | none => exact unbypassed_ok _
    | some candle =>
      refine Unbypassed.bind (unbypassed_decide (s := s.counted) candidate arm hkept) ?_
      exact fun decided _ => unbypassed_settle candidate arm
  · intro s' h
    obtain ⟨filled, -, h⟩ := bind_eq_ok.mp h
    cases filled with
    | none =>
      cases h
      exact hkept
    | some candle =>
      obtain ⟨decided, hdecided, h⟩ := bind_eq_ok.mp h
      have hnext := kept_of_decide (s := s.counted) candidate arm hkept hdecided
      unfold Lab.settle at h
      obtain ⟨filled, -, h⟩ := bind_eq_ok.mp h
      obtain ⟨kept, -, h⟩ := bind_eq_ok.mp h
      obtain ⟨active, -, h⟩ := bind_eq_ok.mp h
      obtain ⟨snapshot, -, h⟩ := bind_eq_ok.mp h
      cases h
      exact hnext

theorem unbypassed_steps (events : List Crisis.CrisisEvent) (hkept : s.own.tracker.Kept) :
    Unbypassed ((riskOverlay candidate arm).steps dataset events s) := by
  unfold Lab.steps
  induction events generalizing s with
  | nil => exact unbypassed_ok s
  | cons event events ih =>
    obtain ⟨hstep, hnext⟩ := unbypassed_step candidate arm hkept
    rw [List.foldlM_cons]
    exact hstep.bind fun s' hs' => ih (hnext s' hs')

theorem kept_of_start {symbol : Symbol}
    (h : (riskOverlay candidate arm).start symbol = .ok own) : own.tracker.Kept := by
  obtain ⟨tracker, htracker, h⟩ := bind_eq_ok.mp h
  cases h
  cases arm with
  | reference =>
    cases htracker
    exact nofun
  | challenger cooldown =>
    obtain ⟨t, -, htracker⟩ := bind_eq_ok.mp htracker
    cases htracker
    trivial

theorem unbypassed_start (symbol : Symbol) :
    Unbypassed ((riskOverlay candidate arm).start symbol) := by
  refine Unbypassed.bind ?_ fun _ _ => unbypassed_ok _
  cases arm with
  | reference => exact unbypassed_ok _
  | challenger cooldown =>
    refine Unbypassed.bind (unbypassed_mapError fun e he => ?_) fun _ _ => unbypassed_ok _
    unfold _RecoveryCooldownRiskTracker.init raiseIf at he
    split at he
    · cases he
      exact lab_ne_bypassed (by decide)
    · cases he

theorem unbypassed_finish (analysis : List Candle) (last : Candle) :
    Unbypassed ((riskOverlay candidate arm).finish s analysis last) := by
  unfold Lab.finish
  refine Unbypassed.bind (unbypassed_mapError fun _ _ => by nofun) fun final _ => ?_
  refine Unbypassed.bind (unbypassed_raiseIf fun _ => ?_) fun _ _ => unbypassed_ok _
  exact failed_ne_bypassed candidate arm _

/-- No cell of the risk overlay raises the error of a bypassed latch. -/
theorem unbypassed_runCell (dataset : AcceptedBacktestDataset) :
    Unbypassed ((riskOverlay candidate arm)._runCell dataset) := by
  unfold Lab._runCell Lab.run Lab.opened
  refine Unbypassed.bind ?_ fun ran _ => ?_
  · refine Unbypassed.bind ?_ fun opened _ => ?_
    · refine Unbypassed.bind (unbypassed_raiseIf fun _ => ?_) fun _ _ => ?_
      · exact failed_ne_bypassed candidate arm _
      refine Unbypassed.bind (unbypassed_mapError fun _ _ => by nofun) fun events _ => ?_
      refine Unbypassed.bind (unbypassed_raiseIf fun _ => ?_) fun _ _ => ?_
      · exact failed_ne_bypassed candidate arm _
      refine Unbypassed.bind (unbypassed_raiseIf fun _ => ?_) fun _ _ => unbypassed_ok _
      exact failed_ne_bypassed candidate arm _
    refine (unbypassed_start candidate arm _).bind fun own hown => ?_
    have hkept := kept_of_start candidate arm hown
    exact Unbypassed.bind (unbypassed_steps (s := .init dataset.spec own) candidate arm _ hkept)
      fun _ _ => unbypassed_ok _
  · cases hlast : ran.1.getLast? with
    | none =>
      dsimp only
      rw [hlast]
      exact nofun
    | some last =>
      dsimp only
      rw [hlast]
      exact unbypassed_finish candidate arm _ _

end Overlay

theorem sound_init {symbol : Symbol} {initialEquity : String} {cooldown : ℤ}
    {t : _RecoveryCooldownRiskTracker}
    (h : _RecoveryCooldownRiskTracker.init symbol initialEquity cooldown = .ok t) :
    Sound t ∧ t.hardLatched = false ∧ t.previousClosedTrades = 0 ∧ t.peak = ofText initialEquity := by
  unfold _RecoveryCooldownRiskTracker.init at h
  obtain ⟨hcooldown, h⟩ := raiseIf_bind_eq_ok.mp h
  cases h
  refine ⟨?_, rfl, rfl, rfl⟩
  constructor
  case primary => exact not_not.mp hcooldown
  case nonneg => exact le_rfl
  case le => exact (by decide : (0 : ℤ) ≤ cooldownDecisions)
  case pending => exact nofun

/-- Over every sequence of observations that close one trade at most each, the recovery tracker
returns and keeps to its law, and no cell comes to the error of a bypassed latch. -/
theorem recovery_law (symbol : Symbol) (initialEquity : String) :
    ∃ t, _RecoveryCooldownRiskTracker.init symbol initialEquity 24 = .ok t ∧
      (∀ os, CloseAtMostOne 0 os → ∃ seen, observeAll t os = .ok seen) ∧
      (∀ os seen, observeAll t os = .ok seen →
        seen.map (fun x => x.observation) = os ∧ RecoveryLaw (ofText initialEquity) seen) ∧
      ∀ candidate arm dataset, Unbypassed ((riskOverlay candidate arm)._runCell dataset) := by
  cases hinit : _RecoveryCooldownRiskTracker.init symbol initialEquity 24 with
  | error e => cases hinit
  | ok t =>
    obtain ⟨hsound, hlatched, hclosed, hpeak⟩ := sound_init hinit
    refine ⟨t, rfl, ?_, ?_, fun candidate arm => unbypassed_runCell candidate arm⟩
    · intro os hos
      rw [← hclosed] at hos
      exact exists_observeAll hos
    · intro os seen hseen
      obtain ⟨hmap, hruns⟩ := observeAll_eq_ok hseen
      rw [← hpeak]
      exact ⟨hmap, hruns.recoveryLaw hsound hlatched⟩

end StrategyLab

end TradingLab
