import TradingLab.Backtest.FillRefusal
import TradingLab.Backtest.Lockstep
import TradingLab.Series.BandPath

/-!
# What happens within a candle

A candle says where the price started and how far it went, but not on which path. The
protective exit of the engine is the worst one among all these paths. The quantities of
the fills of one candle are added in a narrow context, where a sum above the volume of
the candle may be rounded down to it.
-/

namespace TradingLab

open Decimal Method

namespace PaperFillEngine

variable {s : PaperFillEngine} {event : DecisionEvent} {intent : PaperIntent} {bar : Candle}

theorem protectiveExit_flat (hflat : s._position = none) :
    (_protectiveExit event bar).call s = (.ok none, s) := by
  unfold _protectiveExit
  rw [call_read_bind]
  simp only [id, hflat]
  rfl

variable {position : _OpenPosition} {c : Call} {fills : List FillReference} {t : PaperFillEngine}

theorem protectiveExit_of_no_level (hs : s._position = some position)
    (hlevel : _level position bar = none) : (_protectiveExit event bar).call s = (.ok none, s) := by
  unfold _protectiveExit
  rw [call_read_bind]
  simp only [id, hs, hlevel]
  rfl

variable {price a b : String} {reason : FillReason}

theorem protectiveExit_of_level (event : DecisionEvent) (hs : s._position = some position)
    (hlevel : _level position bar = some (price, reason)) :
    ∃ r t, (_protectiveExit event bar).call s = (.ok (some r), t) ∧ r.quantity = position.quantity ∧
      r.referencePrice = price := by
  obtain ⟨hprice, hreason⟩ := level_eq_some hlevel
  have href : ∃ r, s._reference .exitLong event position.quantity price reason = .ok r :=
    reference_of_positive position.sized hprice (.inr ⟨rfl, hreason⟩)
  obtain ⟨r, hr⟩ := href
  refine ⟨r, { s with _position := none }, ?_, (_reference_eq_ok hr).2.2, ?_⟩
  · unfold _protectiveExit
    rw [call_read_bind]
    simp only [id, hs, hlevel]
    rw [call_bind, call_check, hr]
    rfl
  · obtain ⟨-, rfl⟩ := construct_eq_ok.mp hr
    rfl

/-- The price of a text, on the real line. -/
noncomputable def realPrice (text : String) : ℝ := ((ofText text).toRat : ℝ)

/-- A price path that a candle allows. -/
abbrev PricePath (bar : Candle) : Type :=
  BandPath (realPrice bar.open') (realPrice bar.low) (realPrice bar.high)

/-- The exit is there when some path touches a level of the position, and its price is no better than
that of the first touch on any path. -/
structure Conservative (position : _OpenPosition) (bar : Candle) (exit : Option FillReference) :
    Prop where
  emitted : exit.isSome ↔ ∃ (γ : PricePath bar) (t : ℝ),
    γ.Touches (realPrice position.stopPrice) (realPrice position.targetPrice) t
  worst : ∀ r ∈ exit, ∀ (γ : PricePath bar) (t : ℝ),
    γ.FirstTouch (realPrice position.stopPrice) (realPrice position.targetPrice) t →
      realPrice r.referencePrice ≤ γ.value t

theorem realPrice_le : realPrice a ≤ realPrice b ↔ ofText a ≤ ofText b := by
  rw [le_def]
  exact Rat.cast_le

theorem realPrice_lt : realPrice a < realPrice b ↔ ofText a < ofText b := by
  rw [lt_def]
  exact Rat.cast_lt

theorem open_mem_band (bar : Candle) :
    realPrice bar.open' ∈ Set.Icc (realPrice bar.low) (realPrice bar.high) := by
  obtain ⟨-, -, -, -, -, -, hlow, -, hhigh, -⟩ := bar.facts
  rw [← le_def] at hlow hhigh
  exact ⟨realPrice_le.mpr hlow, realPrice_le.mpr hhigh⟩

/-- A level is hit exactly when the candle reaches it. -/
theorem level_isSome_iff (position : _OpenPosition) (bar : Candle) :
    (_level position bar).isSome ↔ ofText bar.low ≤ ofText position.stopPrice ∨
      ofText position.targetPrice ≤ ofText bar.high := by
  obtain ⟨-, -, -, -, -, -, hlow, -, hhigh, -⟩ := bar.facts
  unfold _level
  dsimp only
  simp only [le_def] at hlow hhigh ⊢
  split_ifs with h1 h2 h3 h4 h5
  · exact ⟨fun _ => .inl (hlow.trans h1), fun _ => rfl⟩
  · exact ⟨fun _ => .inr (h2.trans hhigh), fun _ => rfl⟩
  · exact ⟨fun _ => .inl h3.1, fun _ => rfl⟩
  · exact ⟨fun _ => .inl h4, fun _ => rfl⟩
  · exact ⟨fun _ => .inr h5, fun _ => rfl⟩
  · exact iff_of_false Bool.false_ne_true (not_or.mpr ⟨h4, h5⟩)

theorem level_le_firstTouch
    (hbracket : ofText position.stopPrice < ofText position.targetPrice)
    (hlevel : _level position bar = some (price, reason)) {γ : PricePath bar} {t : ℝ}
    (hfirst : γ.FirstTouch (realPrice position.stopPrice) (realPrice position.targetPrice) t) :
    realPrice price ≤ γ.value t := by
  have horder := realPrice_lt.mpr hbracket
  unfold _level at hlevel
  dsimp only at hlevel
  simp only [← realPrice_le] at hlevel
  split_ifs at hlevel with h1 h2 h3 h4 h5
  · cases hlevel
    exact (hfirst.eq_start (.inl h1)).ge
  · cases hlevel
    rw [hfirst.eq_start (.inr h2)]
    exact h2
  · cases hlevel
    exact hfirst.lower_le (not_le.mp h1)
  · cases hlevel
    exact hfirst.lower_le (not_le.mp h1)
  · cases hlevel
    exact hfirst.upper_le (not_le.mp h4)

theorem touched_iff (position : _OpenPosition) (bar : Candle) : (_level position bar).isSome ↔
    ∃ (γ : PricePath bar) (t : ℝ),
      γ.Touches (realPrice position.stopPrice) (realPrice position.targetPrice) t := by
  rw [level_isSome_iff, ← realPrice_le, ← realPrice_le]
  obtain ⟨γ⟩ := BandPath.exists_of_mem (open_mem_band bar)
  constructor
  · exact fun h => ⟨γ, (γ.exists_touches_iff _ _).mpr h⟩
  · rintro ⟨δ, h⟩
    exact (δ.exists_touches_iff _ _).mp h

theorem conservative_protectiveExit (event : DecisionEvent) (bar : Candle)
    (hs : s._position = some position)
    (hbracket : ofText position.stopPrice < ofText position.targetPrice) :
    ∃ exit t, (_protectiveExit event bar).call s = (.ok exit, t) ∧ Conservative position bar exit := by
  have htouched := touched_iff position bar
  cases hlevel : _level position bar with
  | none =>
    rw [hlevel] at htouched
    exact ⟨none, s, protectiveExit_of_no_level hs hlevel, htouched, fun r hr => nomatch hr⟩
  | some level =>
    obtain ⟨price, reason⟩ := level
    rw [hlevel] at htouched
    obtain ⟨r, t, hcall, -, hprice⟩ := protectiveExit_of_level event hs hlevel
    refine ⟨some r, t, hcall, htouched, ?_⟩
    rintro _ ⟨rfl⟩ γ u hfirst
    rw [hprice]
    exact level_le_firstTouch hbracket hlevel hfirst

theorem bracket_of_entry (i : PaperIntent) (h : i.action = .enterLong) :
    ofText (i.position h).stopPrice < ofText (i.position h).targetPrice := by
  obtain ⟨quantity, stop, target, hquantity, hstop, htarget, -, -, -, hlt⟩ := i.facts h
  simpa only [PaperIntent.position, hstop, htarget, Option.get_some] using hlt

theorem fills_hold (hhold : c.intent.action = .hold) (h : (process c).call s = (.ok fills, t)) :
    ∃ exit, (_protectiveExit c.event c.fillCandle).call s = (.ok exit, t) ∧ fills = exit.toList := by
  have hfills := call_process_fills h
  unfold _fills at hfills
  rw [if_neg (by rw [hhold]; decide), dif_neg (by rw [hhold]; decide)] at hfills
  obtain ⟨exit, u, hexit, hfills⟩ := call_bind_eq_ok.mp hfills
  cases hfills
  exact ⟨exit, hexit, rfl⟩

theorem fills_enter
    (henter : c.intent.action = .enterLong) (h : (process c).call s = (.ok fills, t)) :
    ∃ entry exit, (_protectiveExit c.event c.fillCandle).call
        { s with _position := some (c.intent.position henter) } = (.ok exit, t) ∧
      entry.quantity = (c.intent.position henter).quantity ∧ fills = entry :: exit.toList := by
  have hfills := call_process_fills h
  unfold _fills at hfills
  rw [if_neg (by rw [henter]; decide), dif_pos henter] at hfills
  unfold _enterLong at hfills
  simp only [call_read_bind, call_check_bind_eq_ok, call_modify_bind, raiseIf_eq_ok, id,
    exists_const] at hfills
  obtain ⟨-, -, entry, hentry, hfills⟩ := hfills
  obtain ⟨exit, u, hexit, hfills⟩ := call_bind_eq_ok.mp hfills
  cases hfills
  exact ⟨entry, exit, hexit, (_reference_eq_ok hentry).2.2, rfl⟩

/-- **Conservative intrabar exit.** -/
theorem protective_exit_conservative :
    (∀ (s : PaperFillEngine) (position : _OpenPosition), s._position = some position →
      ofText position.stopPrice < ofText position.targetPrice →
        (∀ event bar, ∃ exit t, (_protectiveExit event bar).call s = (.ok exit, t) ∧
          Conservative position bar exit) ∧
        ∀ c fills t, c.intent.action = .hold → (process c).call s = (.ok fills, t) →
          ∃ exit, fills = exit.toList ∧ Conservative position c.fillCandle exit) ∧
    ∀ (s : PaperFillEngine) (c : Call) (fills : List FillReference) (t : PaperFillEngine)
      (henter : c.intent.action = .enterLong), (process c).call s = (.ok fills, t) →
        ∃ entry exit, fills = entry :: exit.toList ∧
          Conservative (c.intent.position henter) c.fillCandle exit := by
  constructor
  · intro s position hs hbracket
    refine ⟨fun event bar => conservative_protectiveExit event bar hs hbracket, ?_⟩
    intro c fills t hhold h
    obtain ⟨exit, hexit, rfl⟩ := fills_hold hhold h
    obtain ⟨exit', t', hexit', hconservative⟩ :=
      conservative_protectiveExit c.event c.fillCandle hs hbracket
    rw [hexit] at hexit'
    cases hexit'
    exact ⟨exit, rfl, hconservative⟩
  · intro s c fills t henter h
    obtain ⟨entry, exit, hexit, -, rfl⟩ := fills_enter henter h
    obtain ⟨exit', t', hexit', hconservative⟩ :=
      conservative_protectiveExit c.event c.fillCandle (s := { s with _position := some _ }) rfl
        (bracket_of_entry c.intent henter)
    rw [hexit] at hexit'
    cases hexit'
    exact ⟨entry, exit, rfl, hconservative⟩

/-- A position whose target lies below the price of the sample candle. -/
def heldPosition : _OpenPosition where
  quantity := "1"
  stopPrice := "90"
  targetPrice := "99"
  sized := by decide
  stopped := by decide
  targeted := by decide

theorem protective_exit_conservative_sample : ∃ exit t,
    (_protectiveExit PaperSession.firstEvent PaperSession.firstEntry.fillCandle).call
      ⟨.btcusdt, some heldPosition⟩ = (.ok exit, t) ∧
    Conservative heldPosition PaperSession.firstEntry.fillCandle exit :=
  (protective_exit_conservative.1 ⟨.btcusdt, some heldPosition⟩ heldPosition rfl (by decide)).1
    PaperSession.firstEvent PaperSession.firstEntry.fillCandle

/-- The quantity of a position that a candle closes. -/
def closedQuantity (position : _OpenPosition) (bar : Candle) : List String :=
  if (_level position bar).isSome then [position.quantity] else []

/-- The quantities that a call asks for. -/
def Call.quantities (c : Call) (s : PaperFillEngine) : List String :=
  if h : c.intent.action = .enterLong then
    (c.intent.position h).quantity :: closedQuantity (c.intent.position h) c.fillCandle
  else
    match s._position with
    | none => []
    | some position =>
        if c.intent.action = .exitLong then [position.quantity] else closedQuantity position c.fillCandle

/-- The sum of quantities in the context of `process`. -/
def roundedSum (quantities : List String) : Decimal :=
  (quantities.map ofText).foldl (add defaultPrecision) 0

def exactSum (quantities : List String) : ℚ := (quantities.map fun q => (ofText q).toRat).sum

/-- The quantities of a call exceed the volume of the candle, and their rounded sum does not. -/
structure Hides (c : Call) (s : PaperFillEngine) : Prop where
  fits : c.Fits s
  exits : c.intent.action = .exitLong → s.hasPosition
  enters : ∀ h : c.intent.action = .enterLong,
    ¬ s.hasPosition ∧ Inside (c.intent.position h) c.fillCandle
  rounded : ¬ ofText c.fillCandle.baseVolume < roundedSum (c.quantities s)
  exceeds : (ofText c.fillCandle.baseVolume).toRat < exactSum (c.quantities s)

theorem quantities_protectiveExit (hs : s._position = some position) {exit : Option FillReference}
    (h : (_protectiveExit event bar).call s = (.ok exit, t)) :
    exit.toList.map (fun r => r.quantity) = closedQuantity position bar := by
  unfold closedQuantity
  cases hlevel : _level position bar with
  | none =>
    rw [protectiveExit_of_no_level hs hlevel] at h
    cases h
    rfl
  | some level =>
    obtain ⟨r, u, hcall, hquantity, -⟩ := protectiveExit_of_level event hs hlevel
    rw [hcall] at h
    cases h
    rw [if_pos Option.isSome_some, ← hquantity]
    rfl

/-- What a call fills is what it asks for. -/
theorem quantities_of_fills (h : (_fills c.event c.intent c.fillCandle).call s = (.ok fills, t)) :
    fills.map (fun r => r.quantity) = c.quantities s := by
  unfold Call.quantities
  unfold _fills at h
  split_ifs at h with hexit henter
  · rw [dif_neg (by rw [hexit]; decide)]
    unfold _exitLong at h
    rw [call_read_bind] at h
    simp only [id] at h
    cases hs : s._position with
    | none =>
      rw [hs] at h
      cases h
    | some position =>
      rw [hs] at h
      dsimp only at h
      rw [call_check_bind_eq_ok] at h
      obtain ⟨r, hr, h⟩ := h
      rw [call_modify_bind] at h
      cases h
      simp only [hexit, if_true, List.map_cons, List.map_nil, (_reference_eq_ok hr).2.2]
  · rw [dif_pos henter]
    unfold _enterLong at h
    simp only [call_read_bind, call_check_bind_eq_ok, call_modify_bind, raiseIf_eq_ok, id,
      exists_const] at h
    obtain ⟨-, -, entry, hentry, h⟩ := h
    obtain ⟨exit, u, hexit, h⟩ := call_bind_eq_ok.mp h
    cases h
    rw [List.map_cons, (_reference_eq_ok hentry).2.2, quantities_protectiveExit rfl hexit]
  · rw [dif_neg henter]
    obtain ⟨exit, u, hprotective, h⟩ := call_bind_eq_ok.mp h
    cases h
    cases hs : s._position with
    | none =>
      rw [protectiveExit_flat hs] at hprotective
      cases hprotective
      rfl
    | some position =>
      simp only [if_neg hexit]
      exact quantities_protectiveExit hs hprotective

theorem volume_eq_roundedSum (fills : List FillReference) :
    _volume fills = roundedSum (fills.map fun r => r.quantity) := by
  unfold _volume roundedSum
  rw [List.map_map]
  rfl

theorem exactSum_fills (fills : List FillReference) :
    (fills.map fun r => r.quantityDecimal.toRat).sum = exactSum (fills.map fun r => r.quantity) := by
  unfold exactSum
  rw [List.map_map]
  rfl

theorem Hides.exceeds_volume (h : Hides c s) :
    ∃ fills t, (process c).call s = (.ok fills, t) ∧
      (ofText c.fillCandle.baseVolume).toRat < (fills.map fun r => r.quantityDecimal.toRat).sum := by
  obtain ⟨fills, t, hfills⟩ := fills_return_iff.mpr ⟨h.exits, h.enters⟩
  have hvolume : ¬ ofText c.fillCandle.baseVolume < _volume fills := by
    rw [volume_eq_roundedSum, quantities_of_fills hfills]
    exact h.rounded
  obtain ⟨fills', t', hprocess⟩ := process_returns_iff.mpr ⟨h.fits, fills, t, hfills, hvolume⟩
  refine ⟨fills', t', hprocess, ?_⟩
  rw [exactSum_fills, quantities_of_fills (call_process_fills hprocess)]
  exact h.exceeds

/-- **Volume cap.** The fills of a call stay within the volume of the candle unless rounding their sum
hides the excess. -/
theorem volume_cap_iff (s : PaperFillEngine) (c : Call) :
    (∀ fills t, (process c).call s = (.ok fills, t) →
      (fills.map fun r => r.quantityDecimal.toRat).sum ≤ (ofText c.fillCandle.baseVolume).toRat) ↔
      ¬ Hides c s := by
  constructor
  · intro hcap hhides
    obtain ⟨fills, t, hprocess, hexceeds⟩ := hhides.exceeds_volume
    exact absurd hexceeds (not_lt.mpr (hcap fills t hprocess))
  · intro hhides fills t hprocess
    obtain ⟨hfits, fills', t', hfills, hvolume⟩ := process_returns_iff.mp ⟨fills, t, hprocess⟩
    rw [call_process_fills hprocess] at hfills
    cases hfills
    have hquantities := quantities_of_fills (call_process_fills hprocess)
    have hreturns := fills_return_iff.mp ⟨fills, t, call_process_fills hprocess⟩
    rw [volume_eq_roundedSum, hquantities] at hvolume
    rw [exactSum_fills, hquantities]
    by_contra hexceeds
    exact hhides ⟨hfits, hreturns.1, hreturns.2, hvolume, not_le.mp hexceeds⟩

/-- One unit and one part in ten to the twenty-ninth more. -/
def longEntry : Call where
  event := PaperSession.firstEvent
  intent := ⟨⟨.enterLong, 14400000, some "1.00000000000000000000000000001", some "90", some "110"⟩, by
    decide⟩
  fillCandle := ⟨{ Candle.flat .btcusdt .h1 14400000 "100" with baseVolume := "1" }, by decide⟩

/-- An entry above the volume of the candle is filled. -/
theorem volume_cap_rounded : ¬ ∀ fills t,
    (process longEntry).call (.init .btcusdt) = (.ok fills, t) →
      (fills.map fun r => r.quantityDecimal.toRat).sum ≤
        (ofText longEntry.fillCandle.baseVolume).toRat := by
  have hhides : Hides longEntry (.init .btcusdt) :=
    ⟨by decide, by decide, by decide, by decide +kernel, by decide +kernel⟩
  obtain ⟨fills, t, hprocess, hexceeds⟩ := hhides.exceeds_volume
  exact fun hcap => absurd hexceeds (not_lt.mpr (hcap fills t hprocess))

end PaperFillEngine

end TradingLab
