import TradingLab.Execution.Connection

/-!
# Runs of the order store

The store is called with any events in any order, while decisions are recorded
in the journal beside it. After every call the projection of each order is the
replay of its log, and a call that raises leaves the committed rows alone. It
leaves no transaction open either, unless it raised because the time of its
event fits no column.
-/

namespace TradingLab

open Method

namespace LocalPaperOrderStore

/-- The rows after the state of an order is written. -/
def writtenStates (previous : Option LocalPaperOrderState) (current : LocalPaperOrderState)
    (rows : List OrderStateRow) : List OrderStateRow :=
  match previous with
  | none => rows ++ [current.row]
  | some previous => rows.map fun r =>
      if r.authorizationSha256 = current.authorizationSha256 ∧
        r.stateSha256 = previous.stateSha256 then current.row else r

variable {event : LocalPaperOrderEvent} {db' : Database} {previous : Option LocalPaperOrderState}
  {current : LocalPaperOrderState}

theorem call_insertEvent_eq_ok {db : Database} {u : Unit}
    (h : (_insertEvent event).call db = (.ok u, db')) :
    db' = { db with orderEvents := db.orderEvents ++ [event.row] } := by
  unfold _insertEvent at h
  rw [call_read_bind] at h
  obtain ⟨_, -, h⟩ := call_check_bind_eq_ok.mp h
  obtain ⟨_, -, h⟩ := call_check_bind_eq_ok.mp h
  exact call_modify_eq_ok.mp h

theorem call_writeState_eq_ok {db : Database} {u : Unit}
    (h : (_writeState previous current).call db = (.ok u, db')) :
    db' = { db with orderStates := writtenStates previous current db.orderStates } := by
  unfold _writeState at h
  rw [call_read_bind] at h
  cases previous with
  | none =>
    obtain ⟨_, -, h⟩ := call_check_bind_eq_ok.mp h
    exact call_modify_eq_ok.mp h
  | some p =>
    obtain ⟨_, -, h⟩ := call_check_bind_eq_ok.mp h
    obtain ⟨_, -, h⟩ := call_check_bind_eq_ok.mp h
    exact call_modify_eq_ok.mp h

/-- An accepted event adds its row and writes the state it leads to. -/
theorem apply_eq_ok {t : LocalPaperOrderTransition}
    {db : Database} (h : (apply event).call db = (.ok t, db')) :
    ∃ intent previous current, _getIntent db event.authorizationSha256 = .ok intent ∧
      _stateFromRow (db.selectState event.authorizationSha256) = .ok previous ∧
      _nextState intent previous event = .ok current ∧
      db' = { db with
        orderEvents := db.orderEvents ++ [event.row]
        orderStates := writtenStates previous current db.orderStates } := by
  unfold apply at h
  rw [call_atomic_eq_ok, call_read_bind] at h
  obtain ⟨intent, hintent, h⟩ := call_check_bind_eq_ok.mp h
  obtain ⟨previous, hprevious, h⟩ := call_check_bind_eq_ok.mp h
  obtain ⟨transition, htransition, h⟩ := call_check_bind_eq_ok.mp h
  obtain ⟨_, db₁, hinsert, h⟩ := call_bind_eq_ok.mp h
  obtain ⟨_, db₂, hwrite, h⟩ := call_bind_eq_ok.mp h
  cases h
  refine ⟨intent, previous, t.current, hintent, hprevious,
    applyLocalOrderEvent_eq_ok htransition, ?_⟩
  rw [call_writeState_eq_ok hwrite, call_insertEvent_eq_ok hinsert]

theorem find?_writtenStates_other {a : String} (h : a ≠ current.authorizationSha256)
    (rows : List OrderStateRow) :
    (writtenStates previous current rows).find? (fun r => r.authorizationSha256 = a) =
      rows.find? (fun r => r.authorizationSha256 = a) := by
  have hrow : current.row.authorizationSha256 ≠ a := fun h' => h h'.symm
  cases previous with
  | none =>
    simp only [writtenStates]
    rw [List.find?_append, List.find?_singleton, if_neg (by simpa using hrow)]
    exact Option.or_none
  | some p =>
    simp only [writtenStates]
    induction rows with
    | nil => rfl
    | cons r rows ih =>
      rw [List.map_cons, List.find?_cons, List.find?_cons, ih]
      by_cases hr : r.authorizationSha256 = current.authorizationSha256 ∧
          r.stateSha256 = p.stateSha256
      · rw [if_pos hr]
        have hne : r.authorizationSha256 ≠ a := fun h' => h (h'.symm.trans hr.1)
        simp [hrow, hne]
      · rw [if_neg hr]

/-- The state written is the one that is read. -/
theorem find?_writtenStates_own {rows : List OrderStateRow}
    (hp : ∀ p ∈ previous, p.authorizationSha256 = current.authorizationSha256)
    (h : rows.find? (fun r => r.authorizationSha256 = current.authorizationSha256) =
      previous.map (·.row)) :
    (writtenStates previous current rows).find?
      (fun r => r.authorizationSha256 = current.authorizationSha256) = some current.row := by
  have hrow : current.row.authorizationSha256 = current.authorizationSha256 := rfl
  cases previous with
  | none =>
    simp only [writtenStates]
    rw [List.find?_append, h, List.find?_singleton, if_pos (by simpa using hrow)]
    rfl
  | some p =>
    simp only [writtenStates]
    induction rows with
    | nil => cases h
    | cons r rows ih =>
      rw [List.map_cons, List.find?_cons]
      rw [List.find?_cons] at h
      by_cases hr : r.authorizationSha256 = current.authorizationSha256
      · rw [decide_eq_true hr] at h
        cases h
        rw [if_pos ⟨hp p rfl, rfl⟩]
        simp [hrow]
      · rw [decide_eq_false hr] at h
        rw [if_neg fun h' => hr h'.1, decide_eq_false hr]
        exact ih h

/-- The rows of one order are those of a replay. -/
structure Recorded (db : Database) (a : String) (es : List LocalPaperOrderEvent)
    (state : Option LocalPaperOrderState) : Prop where
  log : (db.orderEvents.filter fun r => r.authorizationSha256 = a) = es.map (·.row)
  projection : db.selectState a = state.map (·.row)
  replayed : (es = [] ∧ state = none) ∨
    ∃ intent, _getIntent db a = .ok intent ∧ Replays intent none es state

def Projected (db : Database) : Prop := ∀ a, ∃ es state, Recorded db a es state

theorem projected_empty {db : Database} (he : db.orderEvents = []) (hs : db.orderStates = []) :
    Projected db := by
  intro a
  refine ⟨[], none, ?_, ?_, .inl ⟨rfl, rfl⟩⟩
  · rw [he]
    rfl
  · unfold Database.selectState
    rw [hs]
    rfl

/-- What an accepted event preserves. -/
theorem projected_apply {t : LocalPaperOrderTransition}
    {db : Database} (hdb : Projected db) (h : (apply event).call db = (.ok t, db')) :
    Projected db' := by
  obtain ⟨intent, previous, current, hintent, hprevious, hnext, rfl⟩ := apply_eq_ok h
  obtain ⟨hfollows, hcurrent⟩ := nextState_eq_ok hnext
  have hown : current.authorizationSha256 = event.authorizationSha256 := by rw [hcurrent]; rfl
  have hevent : event.row.authorizationSha256 = event.authorizationSha256 := rfl
  intro a
  obtain ⟨es, state, hes, hstate, hreplayed⟩ := hdb a
  by_cases ha : a = event.authorizationSha256
  · subst ha
    -- the order of the event: its log grows by one
    rw [hstate, _stateFromRow_map] at hprevious
    cases hprevious
    refine ⟨es ++ [event], some current, ?_, ?_, .inr ⟨intent, hintent, ?_⟩⟩
    · rw [List.filter_append, hes, List.map_append]
      simp [hevent]
    · unfold Database.selectState at hstate ⊢
      rw [← hown] at hstate ⊢
      apply find?_writtenStates_own _ hstate
      intro p hp
      rw [hown, hfollows.authorization]
      exact (hfollows.later p hp).1
    · rcases hreplayed with ⟨rfl, rfl⟩ | ⟨intent', hintent', hreplays⟩
      · exact .cons hnext (.nil _)
      · rw [hintent] at hintent'
        cases hintent'
        exact hreplays.snoc hnext
  · refine ⟨es, state, ?_, ?_, hreplayed⟩
    · rw [List.filter_append, hes]
      have : ¬ event.row.authorizationSha256 = a := fun h' => ha h'.symm
      simp [this]
    · rw [← hstate]
      exact find?_writtenStates_other (by rwa [hown]) _

theorem projected_record {d : LocalPaperExecutionDecision} {db : Database} (hdb : Projected db) :
    Projected ((ExecutionIntentJournal.record d).after db) := by
  rcases hcall : (ExecutionIntentJournal.record d).call db with ⟨r, db'⟩
  have hafter : (ExecutionIntentJournal.record d).after db = db' := congrArg Prod.snd hcall
  rw [hafter]
  rcases ExecutionIntentJournal.record_cases hcall with rfl | ⟨i, -, -, rfl⟩
  · exact hdb
  · intro a
    obtain ⟨es, state, hes, hstate, hreplayed⟩ := hdb a
    refine ⟨es, state, hes, hstate, hreplayed.imp_right ?_⟩
    rintro ⟨intent, hintent, hreplays⟩
    refine ⟨intent, ?_, hreplays⟩
    unfold _getIntent Database.selectIntent at hintent ⊢
    split at hintent
    · cases hintent
    · rename_i row hrow
      rw [List.find?_append, hrow]
      exact hintent

/-- What the rows of one order say: its log, and the projection beside it. -/
structure OrderLaw (db : Database) (a : String) (es : List LocalPaperOrderEvent) : Prop where
  stored : db.selectEvents a = es.map (·.row)
  consecutive : ∀ i (hi : i < es.length), es[i].sequence = i
  increasing : es.Pairwise fun e f => e.eventTimeMs < f.eventTimeMs
  types : es.map (·.eventType) <+: [.create, .activate, .cancel]
  first : ∀ e ∈ es.head?, e.previousEventSha256 = none
  linked : es.IsChain fun e f => f.previousEventSha256 = some e.eventSha256
  absent : es = [] → db.selectState a = none
  projected : es ≠ [] → ∃ state : LocalPaperOrderState,
    db.selectState a = some state.row ∧ _loadOrder db a = .ok (es, some state)

def Sourced (db : Database) : Prop := ∀ a, ∃ es, OrderLaw db a es

namespace Recorded
variable {db : Database} {a : String} {es : List LocalPaperOrderEvent}
  {state : Option LocalPaperOrderState}

theorem lifecycle (h : Recorded db a es state) : Lifecycle es := by
  rcases h.replayed with ⟨rfl, -⟩ | ⟨intent, -, hreplays⟩
  · exact ⟨nofun, .nil⟩
  · exact hreplays.lifecycle

theorem selectEvents (h : Recorded db a es state) : db.selectEvents a = es.map (·.row) := by
  unfold Database.selectEvents
  rw [h.log]
  apply List.Pairwise.insertionSort_eq
  rw [List.pairwise_map]
  apply h.lifecycle.sorted.imp
  intro e f hlt
  simpa [LocalPaperOrderEvent.row, Cell.le, Cell.toRat] using hlt.le

theorem law (h : Recorded db a es state) : OrderLaw db a es where
  stored := h.selectEvents
  consecutive := h.lifecycle.consecutive
  increasing := h.lifecycle.increasing
  types := h.lifecycle.types
  first := h.lifecycle.predecessor
  linked := h.lifecycle.linked.imp fun _ _ hs => hs.digest
  absent := by
    intro hes
    rcases h.replayed with ⟨-, hstate⟩ | ⟨intent, -, hreplays⟩
    · rw [h.projection, hstate]
      rfl
    · subst hes
      cases hreplays
      exact h.projection
  projected := by
    intro hes
    rcases h.replayed with ⟨hnil, -⟩ | ⟨intent, hintent, hreplays⟩
    · exact (hes hnil).elim
    · cases state with
      | none => exact (hes (hreplays.eq_nil rfl)).elim
      | some s =>
        refine ⟨s, h.projection, ?_⟩
        unfold _loadOrder
        rw [hintent, h.selectEvents, h.projection]
        simp only [ok_bind, hreplays.replay, _stateFromRow_map]
        exact raiseIf_bind_eq_ok.mpr ⟨fun hne => hne rfl, rfl⟩

end Recorded

theorem Projected.sourced {db : Database} (h : Projected db) : Sourced db := by
  intro a
  obtain ⟨es, state, hrecorded⟩ := h a
  exact ⟨es, hrecorded.law⟩

/-- A call of the order store, or of a store beside it that writes tables of its own. -/
inductive StoreCall where
  | apply (refused : Statement → Option SqliteError) (event : LocalPaperOrderEvent)
  | record (decision : LocalPaperExecutionDecision)
  | portfolio (fills : List FillEventRow) (portfolios : List PortfolioRow)

/-- A store beside this one has a connection of its own, and waits in vain for an open
transaction to end. -/
def beside {α : Type} (m : Method Database LocalOrderError α) :
    Method Connection LocalOrderError α := do
  let c ← read id
  check (raiseIf (c.transaction ≠ none) SqliteError.other.raised)
  zoom (·.database) (fun db c => { c with database := db }) id m

def journalError : ExecutionJournalError → LocalOrderError
  | .failed message => .failed message
  | .conflict message => .failed message

def storeCall : StoreCall → Method Connection LocalOrderError Unit
  | .apply refused event => do
      let _ ← Connection.apply refused event
      return ()
  | .record decision => do
      let _ ← beside (zoom id (fun db _ => db) journalError (ExecutionIntentJournal.record decision))
      return ()
  | .portfolio fills portfolios =>
      beside (modify fun db => { db with fillEvents := fills, portfolios := portfolios })

def opened (intents : List IntentRow) : Connection :=
  ⟨{ Database.migrated with intents := intents }, none⟩

/-- A call that raises leaves the rows as they were, and no transaction open. -/
def RollsBack (refused : Statement → Option SqliteError) (event : LocalPaperOrderEvent)
    (c : Connection) : Prop :=
  ¬ (Connection.apply refused event).Returns c →
    (Connection.apply refused event).after c = ⟨c.database, none⟩

structure EventSourced (intents : List IntentRow) (calls : List StoreCall) : Prop where
  sourced : ∀ done, done <+: calls → Sourced (run storeCall done (opened intents)).database
  rollsBack : ∀ done refused event, done ++ [.apply refused event] <+: calls →
    RollsBack refused event (run storeCall done (opened intents))

theorem after_storeCall_apply (refused : Statement → Option SqliteError)
    (event : LocalPaperOrderEvent) (c : Connection) :
    (storeCall (.apply refused event)).after c = (Connection.apply refused event).after c := by
  unfold storeCall after
  rw [call_bind]
  rcases (Connection.apply refused event).call c with ⟨r, c'⟩
  cases r <;> rfl

theorem projected_beside {α : Type} {m : Method Database LocalOrderError α} {c : Connection}
    (hm : ∀ db, Projected db → Projected (m.after db)) (hc : Projected c.database) :
    Projected ((beside m).after c).database := by
  unfold beside after
  rw [call_read_bind, call_bind, call_check]
  by_cases hopen : (id c).transaction ≠ none
  · rw [raiseIf_pos hopen]
    exact hc
  · rw [raiseIf_neg hopen]
    have hafter := hm c.database hc
    unfold after at hafter
    simp only [call_zoom]
    rcases hcall : m.call c.database with ⟨r, db⟩
    rw [hcall] at hafter
    cases r <;> exact hafter

/-- What every call preserves. -/
theorem projected_storeCall (call : StoreCall) (c : Connection) (hc : Projected c.database) :
    Projected ((storeCall call).after c).database := by
  cases call with
  | apply refused event =>
    rw [after_storeCall_apply]
    rcases Connection.apply_cases refused event c with
      ⟨-, -, t, db, hdb, hafter⟩ | ⟨-, -, hafter⟩ | ⟨-, -, hafter⟩
    · rw [hafter]
      exact projected_apply hc hdb
    · rw [hafter]
      exact hc
    · rw [hafter]
      exact hc
  | record decision =>
    have hrecord : ∀ db, Projected db → Projected
        ((zoom id (fun db _ => db) journalError (ExecutionIntentJournal.record decision)).after
          db) := by
      intro db hdb
      have hafter := projected_record (d := decision) hdb
      unfold after at hafter ⊢
      rw [call_zoom]
      rcases hcall : (ExecutionIntentJournal.record decision).call db with ⟨r, db'⟩
      rw [hcall] at hafter
      simp only [id, hcall]
      cases r <;> exact hafter
    have hbeside := projected_beside hrecord hc
    unfold storeCall after at *
    rw [call_bind]
    rcases hcall : (beside (zoom id (fun db _ => db) journalError
      (ExecutionIntentJournal.record decision))).call c with ⟨r, c'⟩
    rw [hcall] at hbeside
    cases r <;> exact hbeside
  | portfolio fills portfolios =>
    apply projected_beside _ hc
    intro db hdb a
    obtain ⟨es, state, hes, hstate, hreplayed⟩ := hdb a
    exact ⟨es, state, hes, hstate, hreplayed⟩

theorem sourced_run (intents : List IntentRow) (calls : List StoreCall) :
    Sourced (run storeCall calls (opened intents)).database := by
  have hprojected : Projected (run storeCall calls (opened intents)).database :=
    @run_invariant _ _ _ storeCall (fun c => Projected c.database) _ (projected_empty rfl rfl)
      projected_storeCall calls
  exact hprojected.sourced

/-- Every run keeps the law of the log and its projection. A call that raises leaves the rows
as they were and no transaction open, in every run, if and only if no call reaches the insertion
of an event whose time fits no column. -/
theorem order_store_law (intents : List IntentRow) (calls : List StoreCall) :
    (∀ done, done <+: calls → Sourced (run storeCall done (opened intents)).database) ∧
      (EventSourced intents calls ↔
        ∀ done refused event, done ++ [.apply refused event] <+: calls →
          ¬ Connection.Unbindable refused (run storeCall done (opened intents)) event) := by
  refine ⟨fun done _ => sourced_run intents done, ?_, ?_⟩
  · intro h done refused event hinitial hun
    rcases Connection.apply_cases refused event (run storeCall done (opened intents)) with
      ⟨-, hnot, -⟩ | ⟨-, hnot, -⟩ | ⟨hraises, -, hafter⟩
    · exact hnot hun
    · exact hnot hun
    · have hclosed := h.rollsBack done refused event hinitial hraises
      rw [hafter] at hclosed
      cases hclosed
  · intro h
    refine ⟨fun done _ => sourced_run intents done, ?_⟩
    intro done refused event hinitial hraises
    rcases Connection.apply_cases refused event (run storeCall done (opened intents)) with
      ⟨hreturns, -⟩ | ⟨-, -, hafter⟩ | ⟨-, hun, -⟩
    · exact (hraises hreturns).elim
    · exact hafter
    · exact (h done refused event hinitial hun).elim

def sampleDigest : String := "0000000000000000000000000000000000000000000000000000000000000000"

def sampleRow : IntentRow where
  authorizationSha256 := sampleDigest
  effectSha256 := sampleDigest
  decisionSha256 := sampleDigest
  readinessSha256 := sampleDigest
  action := "ENTER_LONG"
  approvedQuantity := "1"
  policyId := executionPolicyId
  intentSha256 := ""

def sampleIntent : LocalPaperIntentRecord where
  toIntentRow := { sampleRow with intentSha256 := sampleRow.expectedSha256 }
  valid := by
    have hdigest : Sha256.isHexDigest sampleDigest = true := by decide
    simp only [IntentRow.postInit, sampleRow, List.all_cons, List.all_nil, hdigest]
    simp [IntentRow.expectedSha256, IntentRow.material]

/-- The order is created one millisecond after the greatest time a column holds. -/
def sampleEvent : LocalPaperOrderEvent where
  authorizationSha256 := sampleIntent.authorizationSha256
  intentSha256 := sampleIntent.intentSha256
  sequence := 0
  eventTimeMs := maxInteger + 1
  eventType := .create
  reason := .acceptedIntentRecorded
  previousEventSha256 := none
  valid := by
    have hfacts := sampleIntent.facts
    simp [LocalPaperOrderEvent.Fields.postInit, LocalPaperOrderEvent.Fields._predecessor, hfacts,
      maxInteger, eventReasons]

theorem getIntent_sample : _getIntent (opened [sampleIntent.toIntentRow]).database
    sampleEvent.authorizationSha256 = .ok sampleIntent := by
  have hselect : (opened [sampleIntent.toIntentRow]).database.selectIntent
      sampleEvent.authorizationSha256 = some sampleIntent.toIntentRow := by
    unfold Database.selectIntent opened
    have hsame : sampleIntent.authorizationSha256 = sampleEvent.authorizationSha256 := rfl
    rw [List.find?_singleton, if_pos (decide_eq_true hsame)]
  have hbuild : LocalPaperIntentRecord.build sampleIntent.toIntentRow = .ok sampleIntent :=
    LocalPaperIntentRecord.build_eq_ok.mpr rfl
  unfold _getIntent
  rw [hselect]
  dsimp only
  rw [hbuild]
  rfl

theorem nextState_sample : ∃ s, _nextState sampleIntent none sampleEvent = .ok s := by
  have hfacts := sampleIntent.facts
  have hvalid : (stateAfter sampleEvent none).postInit = .ok () := by
    simp [LocalPaperOrderState.Fields.postInit, LocalPaperOrderState.Fields._predecessor,
      stateAfter, sampleEvent, hfacts, maxInteger, eventStatuses, stateReasons,
      LocalPaperOrderEvent.eventSha256]
  have hfirst : _checkPrevious sampleIntent sampleEvent none = .ok none := by
    unfold _checkPrevious
    rw [raiseIf_bind_eq_ok]
    exact ⟨by decide, rfl⟩
  refine ⟨⟨stateAfter sampleEvent none, hvalid⟩, ?_⟩
  unfold _nextState
  rw [raiseIf_bind_eq_ok, hfirst, ok_bind]
  constructor
  · rintro (h | h)
    · exact h rfl
    · exact h rfl
  · exact construct_of_ok hvalid

theorem accepts_sampleEvent :
    Connection.Accepts (opened [sampleIntent.toIntentRow]).database sampleEvent := by
  obtain ⟨s, hs⟩ := nextState_sample
  obtain ⟨t, ht, -⟩ := applyLocalOrderEvent_of_nextState hs
  exact ⟨sampleIntent, none, t, getIntent_sample, rfl, ht⟩

/-- The store does not know the error, and leaves its transaction open. -/
theorem not_event_sourced :
    ¬ EventSourced [sampleIntent.toIntentRow] [.apply (fun _ => none) sampleEvent] := by
  intro h
  have hun : Connection.Unbindable (fun _ => none) (opened [sampleIntent.toIntentRow])
      sampleEvent := ⟨rfl, ⟨rfl, rfl, rfl, rfl⟩, accepts_sampleEvent, by decide⟩
  have hrolls := h.rollsBack [] (fun _ => none) sampleEvent (List.prefix_refl _)
  rcases Connection.apply_cases (fun _ => none) sampleEvent (opened [sampleIntent.toIntentRow]) with
    ⟨-, hnot, -⟩ | ⟨-, hnot, -⟩ | ⟨hraises, -, hafter⟩
  · exact hnot hun
  · exact hnot hun
  · have hclosed := hrolls hraises
    rw [run_nil, hafter] at hclosed
    cases hclosed

end LocalPaperOrderStore

end TradingLab
