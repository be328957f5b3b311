import TradingLab.Backtest.Intents

/-!
# The paper fill engine

The engine holds at most one position and turns an intent into uncosted fills at
the open of the next primary candle. A protective exit is looked for inside the
same candle, also right after an entry. Whatever `process` raises, it puts the
position back.
-/

namespace TradingLab

open Decimal Method

/-- The precision of the context that `process` adds the quantities in. -/
def defaultPrecision : ℕ := 28

theorem PaperIntent._entryField_eq_ok {value : Option String} {field : String} {d : Decimal} :
    _entryField value field = .ok d ↔ ∃ text, value = some text ∧ decimalPattern text ∧
      0 < ofText text ∧ d = ofText text := by
  cases value with
  | none => simp [_entryField]
  | some text =>
    simp only [_entryField, _positiveDecimal_eq_ok, Option.some.injEq, exists_eq_left',
      lt_def, toRat_zero]

theorem PaperIntent.facts (i : PaperIntent) (h : i.action = .enterLong) :
    ∃ quantity stop target, i.quantity = some quantity ∧ i.stopPrice = some stop ∧
      i.targetPrice = some target ∧ (decimalPattern quantity ∧ 0 < ofText quantity) ∧
      (decimalPattern stop ∧ 0 < ofText stop) ∧ (decimalPattern target ∧ 0 < ofText target) ∧
      ofText stop < ofText target := by
  have hv := i.valid
  unfold Fields.postInit at hv
  rw [raiseIf_bind_eq_ok, if_pos h] at hv
  obtain ⟨-, hv⟩ := hv
  simp only [bind_eq_ok, _entryField_eq_ok, raiseIf_eq_ok, not_or, le_def, not_le] at hv
  obtain ⟨q, ⟨quantity, hq, pq, zq, rfl⟩, s, ⟨stop, hs, ps, zs, rfl⟩, t, ⟨target, ht, pt, zt, rfl⟩,
    -, hlt⟩ := hv
  exact ⟨quantity, stop, target, hq, hs, ht, ⟨pq, zq⟩, ⟨ps, zs⟩, ⟨pt, zt⟩, hlt⟩

/-- The open position. It is only built from an entry that passed its own check. -/
structure _OpenPosition where
  quantity : String
  stopPrice : String
  targetPrice : String
  sized : decimalPattern quantity ∧ 0 < ofText quantity
  stopped : decimalPattern stopPrice ∧ 0 < ofText stopPrice
  targeted : decimalPattern targetPrice ∧ 0 < ofText targetPrice
deriving DecidableEq

/-- The position an entry asks for. -/
def PaperIntent.position (i : PaperIntent) (h : i.action = .enterLong) : _OpenPosition where
  quantity := i.quantity.get (by obtain ⟨_, _, _, hq, -⟩ := i.facts h; simp [hq])
  stopPrice := i.stopPrice.get (by obtain ⟨_, _, _, -, hs, -⟩ := i.facts h; simp [hs])
  targetPrice := i.targetPrice.get (by obtain ⟨_, _, _, -, -, ht, -⟩ := i.facts h; simp [ht])
  sized := by
    obtain ⟨q, s, t, hq, hs, ht, h1, h2, h3, -⟩ := i.facts h
    simpa only [hq, Option.get_some] using h1
  stopped := by
    obtain ⟨q, s, t, hq, hs, ht, h1, h2, h3, -⟩ := i.facts h
    simpa only [hs, Option.get_some] using h2
  targeted := by
    obtain ⟨q, s, t, hq, hs, ht, h1, h2, h3, -⟩ := i.facts h
    simpa only [ht, Option.get_some] using h3

def FillReference.build (f : Fields) : Except FillModelError FillReference :=
  construct f.postInit fun h => ⟨f, h⟩

structure PaperFillEngine where
  symbol : Symbol
  _position : Option _OpenPosition
deriving DecidableEq

namespace PaperFillEngine

def init (symbol : Symbol) : PaperFillEngine := ⟨symbol, none⟩

def hasPosition (s : PaperFillEngine) : Prop := s._position ≠ none

instance (s : PaperFillEngine) : Decidable s.hasPosition := by
  unfold hasPosition
  infer_instance

def _reference (s : PaperFillEngine) (action : IntentAction) (event : DecisionEvent)
    (quantity price : String) (reason : FillReason) : Except FillModelError FillReference :=
  FillReference.build ⟨action, s.symbol, event.decisionTimeMs, event.eligibleFillOpenTimeMs, quantity, price,
    reason⟩

/-- The price a candle closes a position at, with the reason. -/
def _level (position : _OpenPosition) (bar : Candle) : Option (String × FillReason) :=
  let opened := ofText bar.open'
  let low := ofText bar.low
  let high := ofText bar.high
  let stop := ofText position.stopPrice
  let target := ofText position.targetPrice
  if opened ≤ stop then some (bar.open', .stop)
  else if target ≤ opened then some (position.targetPrice, .target)
  else if low ≤ stop ∧ target ≤ high then some (position.stopPrice, .ambiguousStopPriority)
  else if low ≤ stop then some (position.stopPrice, .stop)
  else if target ≤ high then some (position.targetPrice, .target)
  else none

def _protectiveExit (event : DecisionEvent) (bar : Candle) :
    Method PaperFillEngine FillModelError (Option FillReference) := do
  let s ← read id
  match s._position with
  | none => return none
  | some position =>
      match _level position bar with
      | none => return none
      | some (price, reason) => do
          let result ← check (s._reference .exitLong event position.quantity price reason)
          modify fun s => { s with _position := none }
          return some result

/-- The branch of `process` for an exit. -/
def _exitLong (event : DecisionEvent) (bar : Candle) :
    Method PaperFillEngine FillModelError (List FillReference) := do
  let s ← read id
  match s._position with
  | none => check (.error ⟨"Cannot exit without an open long position"⟩)
  | some position => do
      let fill ← check (s._reference .exitLong event position.quantity bar.open' .scriptedExit)
      modify fun s => { s with _position := none }
      return [fill]

/-- The branch of `process` for an entry. -/
def _enterLong (event : DecisionEvent) (position : _OpenPosition) (bar : Candle) :
    Method PaperFillEngine FillModelError (List FillReference) := do
  let s ← read id
  check (raiseIf s.hasPosition ⟨"Overlapping long positions are forbidden"⟩)
  let opened := ofText bar.open'
  check (raiseIf (¬ (ofText position.stopPrice < opened ∧ opened < ofText position.targetPrice))
    ⟨"Next-open price is outside the long bracket"⟩)
  modify fun s => { s with _position := some position }
  let fill ← check (s._reference .enterLong event position.quantity bar.open' .nextPrimaryOpen)
  let protective ← _protectiveExit event bar
  return fill :: protective.toList

/-- The fills of an intent, before the volume is looked at. -/
def _fills (event : DecisionEvent) (intent : PaperIntent) (bar : Candle) :
    Method PaperFillEngine FillModelError (List FillReference) :=
  if intent.action = .exitLong then _exitLong event bar
  else if h : intent.action = .enterLong then _enterLong event (intent.position h) bar
  else do
    let protective ← _protectiveExit event bar
    return protective.toList

def _volume (fills : List FillReference) : Decimal :=
  (fills.map FillReference.quantityDecimal).foldl (add defaultPrecision) 0

/-- The arguments of `process`. -/
structure Call where
  event : DecisionEvent
  intent : PaperIntent
  fillCandle : Candle

/-- The arguments belong together, and to this engine. -/
def Call.Fits (c : Call) (s : PaperFillEngine) : Prop :=
  c.intent.decisionTimeMs = c.event.decisionTimeMs ∧ c.event.snapshot.symbol = s.symbol ∧
    c.fillCandle.symbol = s.symbol ∧ c.fillCandle.interval = primaryInterval ∧
    c.fillCandle.isClosed ∧ c.fillCandle.openTimeMs = c.event.eligibleFillOpenTimeMs

instance (c : Call) (s : PaperFillEngine) : Decidable (c.Fits s) := by
  unfold Call.Fits
  infer_instance

/-- The part of `process` that restores the position when it raises. -/
def _attempt (c : Call) : Method PaperFillEngine FillModelError (List FillReference) := do
  let fills ← _fills c.event c.intent c.fillCandle
  check (raiseIf (ofText c.fillCandle.baseVolume < _volume fills)
    ⟨"Paper fills exceed the candle base volume"⟩)
  return fills

def process (c : Call) : Method PaperFillEngine FillModelError (List FillReference) := do
  let s ← read id
  check (raiseIf (¬ c.Fits s) ⟨"Intent, event or next-open candle is invalid"⟩)
  let original ← read _position
  (_attempt c).onError (modify fun s => { s with _position := original })

def openQuantity (s : PaperFillEngine) : Option String := s._position.map _OpenPosition.quantity

theorem openQuantity_eq_none {s : PaperFillEngine} : s.openQuantity = none ↔ ¬ s.hasPosition := by
  rw [openQuantity, Option.map_eq_none_iff, hasPosition, not_not]

/-- The fills a call can emit, with the open quantity before and after. -/
inductive Emits (symbol : Symbol) (time : ℤ) :
    Option String → List FillReference → Option String → Prop
  | idle (q : Option String) : Emits symbol time q [] q
  | enter {r : FillReference} (ha : r.action = .enterLong)
      (hr : r.symbol = symbol ∧ r.fillTimeMs = time) :
      Emits symbol time none [r] (some r.quantity)
  | exit {r : FillReference} (ha : r.action = .exitLong)
      (hr : r.symbol = symbol ∧ r.fillTimeMs = time) :
      Emits symbol time (some r.quantity) [r] none
  | roundTrip {r x : FillReference} (ha : r.action = .enterLong)
      (hr : r.symbol = symbol ∧ r.fillTimeMs = time) (hx : x.action = .exitLong)
      (hs : x.symbol = symbol ∧ x.fillTimeMs = time) (hq : x.quantity = r.quantity) :
      Emits symbol time none [r, x] none

variable {s s' : PaperFillEngine} {event : DecisionEvent}

theorem _reference_eq_ok {action : IntentAction} {quantity price : String} {reason : FillReason}
    {r : FillReference} (h : s._reference action event quantity price reason = .ok r) :
    r.action = action ∧ (r.symbol = s.symbol ∧ r.fillTimeMs = event.decisionTimeMs) ∧
      r.quantity = quantity := by
  obtain ⟨hv, rfl⟩ := construct_eq_ok.mp h
  have hf := FillReference.Fields.postInit_eq_ok.mp hv
  exact ⟨rfl, ⟨rfl, hf.1.2.1⟩, rfl⟩

theorem call_protectiveExit_eq_ok {bar : Candle} {result : Option FillReference}
    (h : (_protectiveExit event bar).call s = (.ok result, s')) :
    (result = none ∧ s' = s) ∨ ∃ r position, result = some r ∧ s._position = some position ∧
      s' = { s with _position := none } ∧ r.action = .exitLong ∧
      (r.symbol = s.symbol ∧ r.fillTimeMs = event.decisionTimeMs) ∧
      r.quantity = position.quantity := by
  unfold _protectiveExit at h
  rw [call_read_bind] at h
  simp only [id] at h
  cases hs : s._position with
  | none =>
    rw [hs] at h
    cases h
    exact .inl ⟨rfl, rfl⟩
  | some position =>
    rw [hs] at h
    dsimp only at h
    cases hl : _level position bar with
    | none =>
      rw [hl] at h
      cases h
      exact .inl ⟨rfl, rfl⟩
    | some level =>
      rw [hl] at h
      dsimp only at h
      rw [call_check_bind_eq_ok] at h
      obtain ⟨r, hr, h⟩ := h
      rw [call_modify_bind] at h
      cases h
      obtain ⟨ha, hid, hq⟩ := _reference_eq_ok hr
      exact .inr ⟨r, position, rfl, rfl, rfl, ha, hid, hq⟩

theorem call_exitLong_eq_ok {bar : Candle} {fills : List FillReference}
    (h : (_exitLong event bar).call s = (.ok fills, s')) :
    s'.symbol = s.symbol ∧
      Emits s.symbol event.decisionTimeMs s.openQuantity fills s'.openQuantity := by
  unfold _exitLong at h
  rw [call_read_bind] at h
  simp only [id] at h
  cases hs : s._position with
  | none =>
    rw [hs] at h
    cases h
  | some position =>
    rw [hs] at h
    dsimp only at h
    rw [call_check_bind_eq_ok] at h
    obtain ⟨r, hr, h⟩ := h
    rw [call_modify_bind] at h
    cases h
    obtain ⟨ha, hid, hq⟩ := _reference_eq_ok hr
    have hopen : s.openQuantity = some r.quantity := by
      rw [openQuantity, hs, hq]
      rfl
    rw [hopen]
    exact ⟨rfl, .exit ha hid⟩

theorem call_enterLong_eq_ok {position : _OpenPosition} {bar : Candle} {fills : List FillReference}
    (h : (_enterLong event position bar).call s = (.ok fills, s')) :
    s'.symbol = s.symbol ∧
      Emits s.symbol event.decisionTimeMs s.openQuantity fills s'.openQuantity := by
  unfold _enterLong at h
  simp only [call_read_bind, call_check_bind_eq_ok, call_modify_bind, raiseIf_eq_ok, id,
    exists_const] at h
  obtain ⟨hflat, -, r, hr, h⟩ := h
  obtain ⟨result, t, hexit, h⟩ := call_bind_eq_ok.mp h
  cases h
  obtain ⟨ha, hid, hq⟩ := _reference_eq_ok hr
  rw [openQuantity_eq_none.mpr hflat]
  rcases call_protectiveExit_eq_ok hexit with ⟨rfl, rfl⟩ | ⟨x, p, rfl, hp, rfl, hx, hxid, hxq⟩
  · have hopen : openQuantity { s with _position := some position } = some r.quantity := by
      rw [hq]
      rfl
    rw [hopen]
    exact ⟨rfl, .enter ha hid⟩
  · cases hp
    exact ⟨rfl, .roundTrip ha hid hx hxid (hxq.trans hq.symm)⟩

theorem call_fills_eq_ok {intent : PaperIntent} {bar : Candle} {fills : List FillReference}
    (h : (_fills event intent bar).call s = (.ok fills, s')) :
    s'.symbol = s.symbol ∧
      Emits s.symbol event.decisionTimeMs s.openQuantity fills s'.openQuantity := by
  unfold _fills at h
  split_ifs at h
  · exact call_exitLong_eq_ok h
  · exact call_enterLong_eq_ok h
  · obtain ⟨result, t, hexit, h⟩ := call_bind_eq_ok.mp h
    cases h
    rcases call_protectiveExit_eq_ok hexit with ⟨rfl, rfl⟩ | ⟨x, p, rfl, hp, rfl, hx, hid, hq⟩
    · exact ⟨rfl, .idle _⟩
    · have hopen : s.openQuantity = some x.quantity := by
        rw [openQuantity, hp, hq]
        rfl
      rw [hopen]
      exact ⟨rfl, .exit hx hid⟩

theorem call_process_fills {c : Call} {fills : List FillReference}
    (h : (process c).call s = (.ok fills, s')) :
    (_fills c.event c.intent c.fillCandle).call s = (.ok fills, s') := by
  unfold process at h
  simp only [call_read_bind, call_check_bind_eq_ok, raiseIf_eq_ok, id, exists_const] at h
  obtain ⟨-, h⟩ := h
  obtain ⟨fs, t, hf, h⟩ := call_bind_eq_ok.mp (call_onError_eq_ok.mp h)
  rw [call_check_bind_eq_ok] at h
  obtain ⟨-, -, h⟩ := h
  cases h
  exact hf

theorem call_process_eq_ok {c : Call} {fills : List FillReference}
    (h : (process c).call s = (.ok fills, s')) :
    s'.symbol = s.symbol ∧
      Emits s.symbol c.event.decisionTimeMs s.openQuantity fills s'.openQuantity :=
  call_fills_eq_ok (call_process_fills h)

theorem call_process_enter {c : Call} {fills : List FillReference}
    (h : (process c).call s = (.ok fills, s')) (ha : c.intent.action = .enterLong) :
    ∃ r rest, fills = r :: rest ∧ r.action = .enterLong ∧ some r.quantity = c.intent.quantity := by
  have hf := call_process_fills h
  unfold _fills at hf
  rw [if_neg (by rw [ha]; decide), dif_pos ha] at hf
  unfold _enterLong at hf
  simp only [call_read_bind, call_check_bind_eq_ok, call_modify_bind, raiseIf_eq_ok, id,
    exists_const] at hf
  obtain ⟨-, -, r, hr, hf⟩ := hf
  obtain ⟨result, t, -, hf⟩ := call_bind_eq_ok.mp hf
  cases hf
  obtain ⟨hra, -, hrq⟩ := _reference_eq_ok hr
  refine ⟨r, result.toList, rfl, hra, ?_⟩
  rw [hrq]
  exact Option.some_get _

theorem call_process_no_enter {c : Call} {fills : List FillReference}
    (h : (process c).call s = (.ok fills, s')) (ha : c.intent.action ≠ .enterLong) :
    s'.openQuantity = s.openQuantity ∨ s'.openQuantity = none := by
  have hf := call_process_fills h
  unfold _fills at hf
  split at hf
  · right
    unfold _exitLong at hf
    rw [call_read_bind] at hf
    simp only [id] at hf
    cases hs : s._position with
    | none =>
      rw [hs] at hf
      cases hf
    | some position =>
      rw [hs] at hf
      dsimp only at hf
      rw [call_check_bind_eq_ok] at hf
      obtain ⟨r, -, hf⟩ := hf
      rw [call_modify_bind] at hf
      cases hf
      rfl
  · obtain ⟨result, t, hexit, hf⟩ := call_bind_eq_ok.mp hf
    cases hf
    rcases call_protectiveExit_eq_ok hexit with ⟨-, rfl⟩ | ⟨x, p, -, -, rfl, -⟩
    · exact .inl rfl
    · exact .inr rfl

theorem call_process_hold {c : Call} {fills : List FillReference}
    (h : (process c).call s = (.ok fills, s')) (ha : c.intent.action = .hold)
    (hflat : ¬ s.hasPosition) : fills = [] := by
  have hf := call_process_fills h
  have hnone : s._position = none := not_not.mp hflat
  unfold _fills at hf
  rw [if_neg (by rw [ha]; decide), dif_neg (by rw [ha]; decide)] at hf
  obtain ⟨result, t, hexit, hf⟩ := call_bind_eq_ok.mp hf
  cases hf
  rcases call_protectiveExit_eq_ok hexit with ⟨rfl, -⟩ | ⟨x, p, -, hp, -⟩
  · rfl
  · rw [hnone] at hp
    cases hp

theorem keeps_symbol_protectiveExit (event : DecisionEvent) (bar : Candle) :
    Keeps symbol (_protectiveExit event bar) := by
  refine (keeps_read _).bind fun s => ?_
  cases s._position with
  | none => exact keeps_pure _
  | some position =>
    dsimp only
    cases _level position bar with
    | none => exact keeps_pure _
    | some level =>
      exact (keeps_check _).bind fun _ => Keeps.bind keeps_modify fun _ => keeps_pure _

theorem keeps_symbol_fills (event : DecisionEvent) (intent : PaperIntent) (bar : Candle) :
    Keeps symbol (_fills event intent bar) := by
  unfold _fills
  split_ifs
  · refine (keeps_read _).bind fun s => ?_
    cases s._position with
    | none => exact keeps_check _
    | some position =>
      exact (keeps_check _).bind fun _ => Keeps.bind keeps_modify fun _ => keeps_pure _
  · exact (keeps_read _).bind fun _ => (keeps_check _).bind fun _ => (keeps_check _).bind fun _ =>
      Keeps.bind keeps_modify fun _ => (keeps_check _).bind fun _ =>
        (keeps_symbol_protectiveExit event bar).bind fun _ => keeps_pure _
  · exact (keeps_symbol_protectiveExit event bar).bind fun _ => keeps_pure _

theorem keeps_symbol_attempt (c : Call) : Keeps symbol (_attempt c) :=
  (keeps_symbol_fills c.event c.intent c.fillCandle).bind fun _ =>
    (keeps_check _).bind fun _ => keeps_pure _

theorem call_process_eq_error {c : Call} {e : FillModelError}
    (h : (process c).call s = (.error e, s')) : s' = s := by
  unfold process at h
  rw [call_read_bind, call_bind, call_check] at h
  by_cases hf : c.Fits s
  · rw [id, raiseIf_neg (not_not.mpr hf)] at h
    dsimp only at h
    rw [call_read_bind, call_onError] at h
    rcases hb : (_attempt c).call s with ⟨r, t⟩
    have hsymbol := (keeps_symbol_attempt c).call_eq hb
    rw [hb] at h
    cases r with
    | ok fills => cases h
    | error e' =>
      cases h
      cases s
      cases hsymbol
      rfl
  · rw [id, raiseIf, if_pos hf] at h
    cases h
    rfl

/-- The fills of the calls of a run, in order, and the engine after it. -/
def runFrom : List Call → PaperFillEngine → List FillReference × PaperFillEngine
  | [], s => ([], s)
  | c :: calls, s =>
      match (process c).call s with
      | (.ok fills, t) =>
          let rest := runFrom calls t
          (fills ++ rest.1, rest.2)
      | (.error _, t) => runFrom calls t

theorem runFrom_cons (c : Call) (calls : List Call)
    (s : PaperFillEngine) : runFrom (c :: calls) s =
      ((runFrom [c] s).1 ++
          (runFrom calls (runFrom [c] s).2).1,
        (runFrom calls (runFrom [c] s).2).2) := by
  simp only [runFrom]
  rcases (process c).call s with ⟨⟨e⟩ | ⟨fills⟩, t⟩
  · rfl
  · simp

/-- Entries and exits take turns, and an exit closes what was entered before it. -/
inductive Alternates : Option String → List FillReference → Option String → Prop
  | nil (q : Option String) : Alternates q [] q
  | enter {r : FillReference} {rs : List FillReference} {q : Option String}
      (ha : r.action = .enterLong) (h : Alternates (some r.quantity) rs q) :
      Alternates none (r :: rs) q
  | exit {r : FillReference} {rs : List FillReference} {q : Option String}
      (ha : r.action = .exitLong) (h : Alternates none rs q) :
      Alternates (some r.quantity) (r :: rs) q

theorem Alternates.append {p q r : Option String} {xs ys : List FillReference}
    (hx : Alternates p xs q) (hy : Alternates q ys r) : Alternates p (xs ++ ys) r := by
  induction hx with
  | nil q => exact hy
  | enter ha _ ih => exact .enter ha (ih hy)
  | exit ha _ ih => exact .exit ha (ih hy)

theorem Emits.alternates {symbol : Symbol} {time : ℤ} {p q : Option String}
    {fills : List FillReference} (h : Emits symbol time p fills q) : Alternates p fills q := by
  cases h with
  | idle => exact .nil _
  | enter ha _ => exact .enter ha (.nil _)
  | exit ha _ => exact .exit ha (.nil _)
  | roundTrip ha _ hx _ hq =>
    refine .enter ha ?_
    rw [← hq]
    exact .exit hx (.nil _)

theorem Emits.length_le {symbol : Symbol} {time : ℤ} {p q : Option String}
    {fills : List FillReference} (h : Emits symbol time p fills q) :
    fills.length ≤ 2 ∧ fills.countP (fun r => r.action = .exitLong) ≤ 1 := by
  cases h with
  | idle => simp
  | enter ha _ => simp [ha]
  | exit ha _ => simp [ha]
  | roundTrip ha _ hx _ _ => simp [ha, hx]

theorem Emits.reference {symbol : Symbol} {time : ℤ} {p q : Option String}
    {fills : List FillReference} (h : Emits symbol time p fills q) :
    ∀ r ∈ fills, r.symbol = symbol ∧ r.fillTimeMs = time := by
  intro r hr
  cases h with
  | idle => cases hr
  | enter _ h => rwa [List.mem_singleton.mp hr]
  | exit _ h => rwa [List.mem_singleton.mp hr]
  | roundTrip _ h _ hx _ =>
    rw [List.mem_cons, List.mem_singleton] at hr
    rcases hr with rfl | rfl
    · exact h
    · exact hx

theorem alternates_runFrom (calls : List Call) (s : PaperFillEngine) :
    Alternates s.openQuantity (runFrom calls s).1 (runFrom calls s).2.openQuantity := by
  induction calls generalizing s with
  | nil => exact .nil _
  | cons c calls ih =>
    rw [runFrom]
    rcases hc : (process c).call s with ⟨r, t⟩
    cases r with
    | ok fills => exact (call_process_eq_ok hc).2.alternates.append (ih t)
    | error e =>
      rw [call_process_eq_error hc]
      exact ih s

end PaperFillEngine

end TradingLab
