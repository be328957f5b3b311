import TradingLab.Backtest.FillEngine

/-!
# What the fill engine refuses

Every reference the engine builds is valid, so a call whose arguments belong
together raises for three reasons only: an exit without a position, an entry over
a position or outside its bracket, and a candle whose volume is too small.
-/

namespace TradingLab

open Decimal Method

namespace PaperFillEngine

variable {s : PaperFillEngine} {event : DecisionEvent} {intent : PaperIntent} {bar : Candle}

def Positive (text : String) : Prop := decimalPattern text ∧ 0 < ofText text

variable {price : String} {reason : FillReason} {position : _OpenPosition} {c : Call}

theorem positive_price (h : price ∈ [bar.open', bar.high, bar.low, bar.close]) :
    Positive price := by
  obtain ⟨hpattern, hpos⟩ := bar.facts.2.2.2.1 price h
  refine ⟨hpattern, ?_⟩
  rwa [lt_def, toRat_zero]

theorem reference_of_positive {action : IntentAction} {quantity : String} (hq : Positive quantity)
    (hp : Positive price)
    (hr : (action = .enterLong ∧ reason = .nextPrimaryOpen) ∨
      (action = .exitLong ∧ reason ≠ .nextPrimaryOpen)) :
    ∃ r, s._reference action event quantity price reason = .ok r := by
  have he := event.valid
  have hour : primaryInterval.milliseconds = 3600000 := rfl
  unfold DecisionEvent.Fields.postInit at he
  rw [raiseIf_eq_ok, hour] at he
  have hvalid : (⟨action, s.symbol, event.decisionTimeMs, event.eligibleFillOpenTimeMs, quantity,
      price, reason⟩ : FillReference.Fields).postInit = .ok () := by
    rw [FillReference.Fields.postInit_eq_ok]
    refine ⟨⟨?_, ?_, ?_, ?_, ?_, ?_⟩, hq, hp⟩
    · rcases hr with ⟨rfl, -⟩ | ⟨rfl, -⟩
      · exact fun h => by cases h
      · exact fun h => by cases h
    · dsimp only
      omega
    · dsimp only
      omega
    · dsimp only
      omega
    · rcases hr with ⟨-, hr⟩ | ⟨rfl, -⟩
      · exact fun _ => hr
      · exact fun h => by cases h
    · rcases hr with ⟨rfl, -⟩ | ⟨-, hr⟩
      · exact fun h => by cases h
      · exact fun _ => hr
  exact ⟨_, construct_of_ok hvalid⟩

theorem level_eq_some (h : _level position bar = some (price, reason)) :
    Positive price ∧ reason ≠ .nextPrimaryOpen := by
  unfold _level at h
  dsimp only at h
  split_ifs at h
  · cases h
    exact ⟨positive_price List.mem_cons_self, by decide⟩
  · cases h
    exact ⟨position.targeted, by decide⟩
  · cases h
    exact ⟨position.stopped, by decide⟩
  · cases h
    exact ⟨position.stopped, by decide⟩
  · cases h
    exact ⟨position.targeted, by decide⟩

theorem protectiveExit_returns (s : PaperFillEngine) (event : DecisionEvent) (bar : Candle) :
    ∃ r t, (_protectiveExit event bar).call s = (.ok r, t) := by
  unfold _protectiveExit
  rw [call_read_bind]
  simp only [id]
  cases s._position with
  | none => exact ⟨_, _, rfl⟩
  | some position =>
    dsimp only
    cases hl : _level position bar with
    | none => exact ⟨_, _, rfl⟩
    | some level =>
      obtain ⟨price, reason⟩ := level
      obtain ⟨hprice, hreason⟩ := level_eq_some hl
      have href : ∃ r, s._reference .exitLong event position.quantity price reason = .ok r :=
        reference_of_positive position.sized hprice (.inr ⟨rfl, hreason⟩)
      obtain ⟨r, hr⟩ := href
      dsimp only
      rw [call_bind, call_check, hr]
      exact ⟨_, _, rfl⟩

theorem exitLong_returns_iff : (∃ fills t, (_exitLong event bar).call s = (.ok fills, t)) ↔
    s.hasPosition := by
  unfold _exitLong hasPosition
  rw [call_read_bind]
  simp only [id]
  cases hs : s._position with
  | none =>
    dsimp only
    rw [call_check]
    simp
  | some position =>
    have href : ∃ r, s._reference .exitLong event position.quantity bar.open' .scriptedExit = .ok r :=
      reference_of_positive position.sized (positive_price List.mem_cons_self) (.inr ⟨rfl, by decide⟩)
    obtain ⟨r, hr⟩ := href
    dsimp only
    rw [call_bind, call_check, hr]
    simp

/-- The next open lies between the stop and the target. -/
def Inside (position : _OpenPosition) (bar : Candle) : Prop :=
  ofText position.stopPrice < ofText bar.open' ∧ ofText bar.open' < ofText position.targetPrice

instance (position : _OpenPosition) (bar : Candle) : Decidable (Inside position bar) := by
  unfold Inside
  infer_instance

theorem enterLong_returns_iff :
    (∃ fills t, (_enterLong event position bar).call s = (.ok fills, t)) ↔
      ¬ s.hasPosition ∧ Inside position bar := by
  unfold _enterLong
  constructor
  · rintro ⟨fills, t, h⟩
    simp only [call_read_bind, call_check_bind_eq_ok, call_modify_bind, raiseIf_eq_ok, id,
      exists_const, not_not] at h
    exact ⟨h.1, h.2.1⟩
  · rintro ⟨hflat, hinside⟩
    have href : ∃ r, { s with _position := some position }._reference .enterLong event
        position.quantity bar.open' .nextPrimaryOpen = .ok r :=
      reference_of_positive position.sized (positive_price List.mem_cons_self) (.inl ⟨rfl, rfl⟩)
    obtain ⟨r, hr⟩ := href
    obtain ⟨x, t, hx⟩ := protectiveExit_returns { s with _position := some position } event bar
    refine ⟨r :: x.toList, t, ?_⟩
    simp only [call_read_bind, call_check_bind_eq_ok, call_modify_bind, raiseIf_eq_ok, id,
      exists_const, not_not]
    exact ⟨hflat, hinside, r, hr, call_bind_eq_ok.mpr ⟨x, t, hx, rfl⟩⟩

/-- An intent is filled unless it exits nothing, or enters where it must not. -/
theorem fills_return_iff : (∃ fills t, (_fills event intent bar).call s = (.ok fills, t)) ↔
    (intent.action = .exitLong → s.hasPosition) ∧
      ∀ h : intent.action = .enterLong, ¬ s.hasPosition ∧ Inside (intent.position h) bar := by
  unfold _fills
  split_ifs with hexit henter
  · rw [exitLong_returns_iff]
    exact ⟨fun h => ⟨fun _ => h, fun he => by rw [hexit] at he; cases he⟩, fun h => h.1 hexit⟩
  · rw [enterLong_returns_iff]
    exact ⟨fun h => ⟨fun he => (hexit he).elim, fun _ => h⟩, fun h => h.2 henter⟩
  · obtain ⟨x, t, hx⟩ := protectiveExit_returns s event bar
    refine ⟨fun _ => ⟨fun h => (hexit h).elim, fun h => (henter h).elim⟩, fun _ => ?_⟩
    exact ⟨x.toList, t, call_bind_eq_ok.mpr ⟨x, t, hx, rfl⟩⟩

/-- The fills of a call ask for more than the candle traded. -/
def Exceeds (s : PaperFillEngine) (c : Call) : Prop :=
  ∃ fills t, (_fills c.event c.intent c.fillCandle).call s = (.ok fills, t) ∧
    ofText c.fillCandle.baseVolume < _volume fills

/-- What a call whose arguments belong together is refused for. -/
def Refuses (s : PaperFillEngine) (c : Call) : Prop :=
  (c.intent.action = .exitLong ∧ ¬ s.hasPosition) ∨
    (∃ h : c.intent.action = .enterLong,
      s.hasPosition ∨ ¬ Inside (c.intent.position h) c.fillCandle) ∨ Exceeds s c

theorem process_returns_iff : (∃ fills t, (process c).call s = (.ok fills, t)) ↔
    c.Fits s ∧ ∃ fills t, (_fills c.event c.intent c.fillCandle).call s = (.ok fills, t) ∧
      ¬ ofText c.fillCandle.baseVolume < _volume fills := by
  unfold process _attempt
  simp only [call_read_bind, call_check_bind_eq_ok, call_onError_eq_ok, raiseIf_eq_ok, id,
    exists_const, not_not]
  constructor
  · rintro ⟨fills, t, hfits, h⟩
    obtain ⟨fs, u, hf, h⟩ := call_bind_eq_ok.mp h
    obtain ⟨v, hv, -⟩ := call_check_bind_eq_ok.mp h
    exact ⟨hfits, fs, u, hf, raiseIf_eq_ok.mp hv⟩
  · rintro ⟨hfits, fills, t, hf, hv⟩
    refine ⟨fills, t, hfits, call_bind_eq_ok.mpr ⟨fills, t, hf, ?_⟩⟩
    exact call_check_bind_eq_ok.mpr ⟨(), raiseIf_neg hv, rfl⟩

theorem refuses_iff : ¬ Refuses s c ↔
    ∃ fills t, (_fills c.event c.intent c.fillCandle).call s = (.ok fills, t) ∧
      ¬ ofText c.fillCandle.baseVolume < _volume fills := by
  have hfilled := @fills_return_iff s c.event c.intent c.fillCandle
  constructor
  · intro h
    rw [Refuses, not_or, not_or] at h
    obtain ⟨hexit, henter, hvolume⟩ := h
    have hfill : ∃ fills t, (_fills c.event c.intent c.fillCandle).call s = (.ok fills, t) := by
      apply hfilled.mpr
      refine ⟨fun ha => not_not.mp fun hflat => hexit ⟨ha, hflat⟩, fun ha => ?_⟩
      have hgood : ¬ (s.hasPosition ∨ ¬ Inside (c.intent.position ha) c.fillCandle) :=
        fun hbad => henter ⟨ha, hbad⟩
      rwa [not_or, not_not] at hgood
    obtain ⟨fills, t, hf⟩ := hfill
    exact ⟨fills, t, hf, fun hv => hvolume ⟨fills, t, hf, hv⟩⟩
  · rintro ⟨fills, t, hf, hv⟩ hrefuses
    obtain ⟨hexit, henter⟩ := hfilled.mp ⟨fills, t, hf⟩
    rcases hrefuses with ⟨ha, hflat⟩ | ⟨ha, hbad⟩ | ⟨fs, u, hf', hv'⟩
    · exact hflat (hexit ha)
    · obtain ⟨hflat, hinside⟩ := henter ha
      exact hbad.elim hflat fun h => h hinside
    · rw [hf] at hf'
      cases hf'
      exact hv hv'

/-- A call raises exactly when it does not fit or is refused, and then changes nothing. -/
theorem call_process_cases (s : PaperFillEngine) (c : Call) :
    ((c.Fits s ∧ ¬ Refuses s c) ∧ ∃ fills t, (process c).call s = (.ok fills, t)) ∨
      (¬ (c.Fits s ∧ ¬ Refuses s c) ∧ ∃ e, (process c).call s = (.error e, s)) := by
  rw [refuses_iff, ← process_returns_iff]
  rcases h : (process c).call s with ⟨r, t⟩
  cases r with
  | ok fills => exact .inl ⟨⟨fills, t, rfl⟩, fills, t, rfl⟩
  | error e =>
    rw [call_process_eq_error h]
    refine .inr ⟨?_, e, rfl⟩
    rintro ⟨fills, u, hu⟩
    cases hu

end PaperFillEngine

end TradingLab
