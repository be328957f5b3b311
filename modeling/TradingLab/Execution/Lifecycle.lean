import TradingLab.Execution.State

/-!
# The event log of an order

Reading an order replays its event rows from nothing and compares the last
state with the stored projection. The events of a replay are linked: each
follows the one before it in number, time, digest and kind.
-/

namespace TradingLab

namespace LocalPaperOrderStore

/-- The loop over the event rows of one order. -/
def _replay (intent : LocalPaperIntentRecord) : Option LocalPaperOrderState → List OrderEventRow →
    Except LocalOrderError (List LocalPaperOrderEvent × Option LocalPaperOrderState)
  | previous, [] => return ([], previous)
  | previous, row :: rows => do
      let event ← _eventFromRow row
      let transition ← applyLocalOrderEvent intent previous event
      let replayed ← _replay intent (some transition.current) rows
      return (event :: replayed.1, replayed.2)

def _loadOrder (db : Database) (authorizationSha256 : String) :
    Except LocalOrderError (List LocalPaperOrderEvent × Option LocalPaperOrderState) := do
  let intent ← _getIntent db authorizationSha256
  let replayed ← _replay intent none (db.selectEvents authorizationSha256)
  let stored ← _stateFromRow (db.selectState authorizationSha256)
  raiseIf (replayed.2 ≠ stored) (.failed "Stored local order projection differs from replay")
  return (replayed.1, stored)

@[simp] theorem _eventFromRow_row (e : LocalPaperOrderEvent) : _eventFromRow e.row = .ok e := by
  unfold _eventFromRow
  rw [event?_row]
  exact raiseIf_bind_eq_ok.mpr ⟨fun h => h rfl, rfl⟩

@[simp] theorem _stateFromRow_row (s : LocalPaperOrderState) :
    _stateFromRow (some s.row) = .ok (some s) := by
  unfold _stateFromRow
  simp only [state?_row]
  exact raiseIf_bind_eq_ok.mpr ⟨fun h => h rfl, rfl⟩

theorem _stateFromRow_map (s : Option LocalPaperOrderState) :
    _stateFromRow (s.map (·.row)) = .ok s := by
  cases s with
  | none => rfl
  | some s => exact _stateFromRow_row s

end LocalPaperOrderStore

/-- What an accepted event says of its predecessor. -/
structure Succeeds (e f : LocalPaperOrderEvent) : Prop where
  sequence : f.sequence = e.sequence + 1
  time : e.eventTimeMs < f.eventTimeMs
  digest : f.previousEventSha256 = some e.eventSha256
  kind : (e.eventType = .create ∧ f.eventType = .activate) ∨
    (e.eventType = .activate ∧ f.eventType = .cancel)

namespace Succeeds
variable {e f : LocalPaperOrderEvent}

theorem activates (h : Succeeds e f) (he : e.eventType = .create) : f.eventType = .activate := by
  rcases h.kind with ⟨-, hf⟩ | ⟨ha, -⟩
  · exact hf
  · rw [he] at ha
    cases ha

theorem cancels (h : Succeeds e f) (he : e.eventType = .activate) : f.eventType = .cancel := by
  rcases h.kind with ⟨hc, -⟩ | ⟨-, hf⟩
  · rw [he] at hc
    cases hc
  · exact hf

theorem not_cancelled (h : Succeeds e f) : e.eventType ≠ .cancel := by
  rcases h.kind with ⟨hc, -⟩ | ⟨ha, -⟩
  · rw [hc]
    decide
  · rw [ha]
    decide

end Succeeds

theorem LocalPaperOrderEvent.predecessor_of_first {e : LocalPaperOrderEvent}
    (h : e.sequence = 0) : e.previousEventSha256 = none := by
  have hv := e.valid
  unfold Fields.postInit Fields._predecessor at hv
  simp only [unit_bind_eq_ok, h, if_true, raiseIf_eq_ok, not_not] at hv
  exact hv.2.2.2.2

theorem nextState_previousEvent {intent : LocalPaperIntentRecord} {p s : LocalPaperOrderState}
    {event : LocalPaperOrderEvent} (h : _nextState intent (some p) event = .ok s) :
    event.previousEventSha256 = some p.eventSha256 := by
  unfold _nextState _checkPrevious at h
  simp only [raiseIf_bind_eq_ok, not_or, not_not] at h
  obtain ⟨digest, hprev, -⟩ := bind_eq_ok.mp h.2
  simp only [raiseIf_bind_eq_ok, not_not] at hprev
  exact hprev.2.2.2.1

theorem succeeds_of_nextState {intent : LocalPaperIntentRecord} {q : Option LocalPaperOrderState}
    {p s : LocalPaperOrderState} {e f : LocalPaperOrderEvent}
    (he : _nextState intent q e = .ok p) (hf : _nextState intent (some p) f = .ok s) :
    Succeeds e f := by
  have hp := (nextState_eq_ok he).2
  have hdigest := nextState_previousEvent hf
  obtain ⟨-, hseq, htime, hkind⟩ := (nextState_eq_ok hf).1.later p rfl
  rw [hp] at hseq htime hkind hdigest
  refine ⟨hseq, htime, hdigest, ?_⟩
  simp only [stateAfter] at hkind
  cases hk : e.eventType <;> simp_all [eventStatuses]

/-- The events that lead from one state to another. -/
inductive Replays (intent : LocalPaperIntentRecord) :
    Option LocalPaperOrderState → List LocalPaperOrderEvent → Option LocalPaperOrderState → Prop
  | nil (p : Option LocalPaperOrderState) : Replays intent p [] p
  | cons {p q : Option LocalPaperOrderState} {s : LocalPaperOrderState} {e : LocalPaperOrderEvent}
      {es : List LocalPaperOrderEvent} (head : _nextState intent p e = .ok s)
      (tail : Replays intent (some s) es q) : Replays intent p (e :: es) q

namespace Replays
variable {intent : LocalPaperIntentRecord} {p q : Option LocalPaperOrderState}
  {es : List LocalPaperOrderEvent}

theorem snoc {e : LocalPaperOrderEvent} {s : LocalPaperOrderState} (h : Replays intent p es q)
    (he : _nextState intent q e = .ok s) : Replays intent p (es ++ [e]) (some s) := by
  induction h with
  | nil p => exact .cons he (.nil _)
  | cons head _ ih => exact .cons head (ih he)

theorem replay (h : Replays intent p es q) :
    LocalPaperOrderStore._replay intent p (es.map (·.row)) = .ok (es, q) := by
  induction h with
  | nil p => rfl
  | cons head _ ih =>
    obtain ⟨t, ht, hcurrent⟩ := applyLocalOrderEvent_of_nextState head
    rw [List.map_cons]
    unfold LocalPaperOrderStore._replay
    simp only [LocalPaperOrderStore._eventFromRow_row, ok_bind, ht, hcurrent, ih]
    rfl

theorem first (h : Replays intent p es q) {e : LocalPaperOrderEvent} (he : e ∈ es.head?) :
    ∃ s, _nextState intent p e = .ok s := by
  cases h with
  | nil p => cases he
  | cons head tail =>
    cases he
    exact ⟨_, head⟩

theorem linked (h : Replays intent p es q) : es.IsChain Succeeds := by
  induction h with
  | nil p => exact .nil
  | cons head tail ih =>
    apply List.isChain_cons.mpr
    constructor
    · intro f hf
      obtain ⟨s, hs⟩ := tail.first hf
      exact succeeds_of_nextState head hs
    · exact ih

theorem eq_nil (h : Replays intent p es q) (hq : q = none) : es = [] := by
  induction h with
  | nil p => rfl
  | cons head tail ih =>
    cases ih hq
    cases tail
    cases hq

end Replays

/-- The log of an order: its first event creates it, and every later one follows the one
before it. -/
structure Lifecycle (es : List LocalPaperOrderEvent) : Prop where
  first : ∀ e ∈ es.head?, e.sequence = 0 ∧ e.eventType = .create
  linked : es.IsChain Succeeds

theorem Replays.lifecycle {intent : LocalPaperIntentRecord} {q : Option LocalPaperOrderState}
    {es : List LocalPaperOrderEvent} (h : Replays intent none es q) : Lifecycle es where
  first := by
    intro e he
    obtain ⟨s, hs⟩ := h.first he
    exact (nextState_eq_ok hs).1.first rfl
  linked := h.linked

namespace Lifecycle
variable {es : List LocalPaperOrderEvent}

theorem sequence_of_linked {e : LocalPaperOrderEvent} (h : (e :: es).IsChain Succeeds) (i : ℕ)
    (hi : i < (e :: es).length) : (e :: es)[i].sequence = e.sequence + i := by
  induction i with
  | zero => simp
  | succ i ih =>
    have hstep := h.getElem i hi
    rw [hstep.sequence, ih (by omega)]
    push_cast
    ring

theorem consecutive (h : Lifecycle es) (i : ℕ) (hi : i < es.length) : es[i].sequence = i := by
  cases es with
  | nil => cases hi
  | cons e es =>
    rw [sequence_of_linked h.linked i hi, (h.first e rfl).1]
    exact zero_add _

theorem increasing (h : Lifecycle es) : es.Pairwise fun e f => e.eventTimeMs < f.eventTimeMs := by
  have htime : es.IsChain fun e f => e.eventTimeMs < f.eventTimeMs :=
    h.linked.imp fun _ _ hs => hs.time
  have : IsTrans LocalPaperOrderEvent fun e f => e.eventTimeMs < f.eventTimeMs :=
    ⟨fun _ _ _ => lt_trans⟩
  exact List.isChain_iff_pairwise.mp htime

theorem sorted (h : Lifecycle es) : es.Pairwise fun e f => e.sequence < f.sequence := by
  have hseq : es.IsChain fun e f => e.sequence < f.sequence :=
    h.linked.imp fun _ _ hs => by rw [hs.sequence]; omega
  have : IsTrans LocalPaperOrderEvent fun e f => e.sequence < f.sequence :=
    ⟨fun _ _ _ => lt_trans⟩
  exact List.isChain_iff_pairwise.mp hseq

theorem types (h : Lifecycle es) :
    es.map (·.eventType) <+: [.create, .activate, .cancel] := by
  match es, h.first, h.linked with
  | [], _, _ => exact List.nil_prefix
  | [e], hf, _ =>
    have he := (hf e rfl).2
    simp [he]
  | [e, f], hf, .cons_cons hef _ =>
    have he := (hf e rfl).2
    simp [he, hef.activates he]
  | [e, f, g], hf, .cons_cons hef (.cons_cons hfg _) =>
    have he := (hf e rfl).2
    have hfa := hef.activates he
    simp [he, hfa, hfg.cancels hfa]
  | _ :: _ :: _ :: _ :: _, hf, .cons_cons hef (.cons_cons hfg (.cons_cons hgk _)) =>
    have hfa := hef.activates (hf _ rfl).2
    exact (hgk.not_cancelled (hfg.cancels hfa)).elim

theorem predecessor (h : Lifecycle es) : ∀ e ∈ es.head?, e.previousEventSha256 = none :=
  fun e he => LocalPaperOrderEvent.predecessor_of_first (h.first e he).1

end Lifecycle

end TradingLab
