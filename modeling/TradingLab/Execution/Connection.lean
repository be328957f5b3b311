import TradingLab.Execution.Lifecycle

/-!
# The connection of the order store

One call of the store is one transaction of its connection. Any statement may
be refused by the database. The store rolls back after every error it knows; a
number that no column holds raises an error it does not know.
-/

namespace TradingLab

open Method

/-- The ways in which the database refuses a statement. -/
inductive SqliteError where
  | integrity
  | other
deriving Repr, DecidableEq

/-- The error the store raises in its place. -/
def SqliteError.raised : SqliteError → LocalOrderError
  | integrity => LocalPaperOrderStore.integrityError
  | other => .failed "Cannot transactionally apply the local order event"

/-- What is committed, and what the open transaction of the connection sees. -/
structure Connection where
  database : Database
  transaction : Option Database
deriving DecidableEq

inductive Statement where
  | beginImmediate
  | selectIntent
  | selectState
  | insertEvent
  | writeState
  | selectChanges
  | commit
deriving Repr, DecidableEq

namespace Connection

def view (c : Connection) : Database := c.transaction.getD c.database

/-- The statement fails when the database refuses it. -/
def statement (refused : Statement → Option SqliteError) (s : Statement) :
    Method Connection LocalOrderError Unit :=
  check (match refused s with
    | none => .ok ()
    | some e => .error e.raised)

/-- No transaction starts within a transaction. -/
def beginImmediate : Method Connection LocalOrderError Unit := do
  let c ← read id
  check (raiseIf (c.transaction ≠ none) SqliteError.other.raised)
  modify fun c => { c with transaction := some c.database }

/-- Run statements within the transaction. -/
def execute {α : Type} (m : Method Database LocalOrderError α) :
    Method Connection LocalOrderError α :=
  zoom view (fun db c => { c with transaction := some db }) id m

def commit : Method Connection LocalOrderError Unit :=
  modify fun c => ⟨c.view, none⟩

def rollback : Method Connection LocalOrderError Unit :=
  modify fun c => { c with transaction := none }

section Calls
variable {α β : Type} {refused : Statement → Option SqliteError} {s : Statement} {c c' : Connection}

variable {u : Unit} {m : Method Database LocalOrderError α}

theorem call_statement_eq_ok :
    (statement refused s).call c = (.ok u, c') ↔ refused s = none ∧ c' = c := by
  unfold statement
  rw [call_check]
  cases refused s with
  | none => simp [eq_comm]
  | some e => simp

variable {f : Unit → Method Connection LocalOrderError β}

@[simp] theorem call_statement_bind_eq_ok {b : β} :
    (statement refused s >>= f).call c = (.ok b, c') ↔
      refused s = none ∧ (f ()).call c = (.ok b, c') := by
  unfold statement
  rw [call_check_bind_eq_ok]
  cases refused s with
  | none =>
    constructor
    · rintro ⟨_, _, h⟩
      exact ⟨rfl, h⟩
    · rintro ⟨_, h⟩
      exact ⟨(), rfl, h⟩
  | some e => simp

theorem call_beginImmediate_eq_ok :
    beginImmediate.call c = (.ok u, c') ↔
      c.transaction = none ∧ c' = ⟨c.database, some c.database⟩ := by
  unfold beginImmediate
  rw [call_read_bind, call_check_bind_eq_ok]
  constructor
  · rintro ⟨_, hclosed, h⟩
    exact ⟨not_not.mp (raiseIf_eq_ok.mp hclosed), call_modify_eq_ok.mp h⟩
  · rintro ⟨hclosed, h⟩
    exact ⟨(), raiseIf_eq_ok.mpr (not_not.mpr hclosed), call_modify_eq_ok.mpr h⟩

theorem call_execute_eq_ok {a : α} :
    (execute m).call c = (.ok a, c') ↔
      ∃ db, m.call c.view = (.ok a, db) ∧ c' = ⟨c.database, some db⟩ := by
  unfold execute
  rw [call_zoom]
  rcases m.call c.view with ⟨r, db⟩
  cases r with
  | ok a => simp [eq_comm]
  | error e => simp

theorem call_execute_eq_error {e : LocalOrderError} :
    (execute m).call c = (.error e, c') ↔
      ∃ db, m.call c.view = (.error e, db) ∧ c' = ⟨c.database, some db⟩ := by
  unfold execute
  rw [call_zoom]
  rcases m.call c.view with ⟨r, db⟩
  cases r with
  | ok a => simp
  | error e => simp [eq_comm]

theorem keeps_execute (m : Method Database LocalOrderError α) :
    Keeps (·.database) (execute m) := by
  intro c
  unfold after execute
  rw [call_zoom]
  split <;> rfl

theorem keeps_beginImmediate : Keeps (·.database) beginImmediate :=
  (keeps_read id).bind fun _ => (keeps_check _).bind fun _ => keeps_modify

theorem keeps_statement : Keeps (·.database) (statement refused s) := keeps_check _

/-! No refusal of the database is a number that does not fit, so an overflow comes from a
later step. -/

theorem statement_ne_overflow : (statement refused s).call c ≠ (.error .overflow, c') := by
  unfold statement
  rw [call_check]
  cases refused s with
  | none => simp
  | some e => cases e <;> simp [SqliteError.raised, LocalPaperOrderStore.integrityError]

theorem call_statement_bind_overflow :
    (statement refused s >>= f).call c = (.error .overflow, c') ↔
      refused s = none ∧ (f ()).call c = (.error .overflow, c') := by
  rw [call_bind_eq_error]
  constructor
  · rintro (h | ⟨_, d, hs, h⟩)
    · exact (statement_ne_overflow h).elim
    · obtain ⟨hn, rfl⟩ := call_statement_eq_ok.mp hs
      exact ⟨hn, h⟩
  · rintro ⟨hn, h⟩
    exact .inr ⟨(), c, call_statement_eq_ok.mpr ⟨hn, rfl⟩, h⟩

theorem call_beginImmediate_bind_overflow :
    (beginImmediate >>= f).call c = (.error .overflow, c') ↔ c.transaction = none ∧
      (f ()).call ⟨c.database, some c.database⟩ = (.error .overflow, c') := by
  rw [call_bind_eq_error]
  constructor
  · rintro (h | ⟨_, d, hb, h⟩)
    · unfold beginImmediate at h
      rw [call_read_bind] at h
      rcases call_check_bind_eq_error.mp h with ⟨h, -⟩ | ⟨_, -, h⟩
      · cases (raiseIf_eq_error.mp h).2
      · cases h
    · obtain ⟨hn, rfl⟩ := call_beginImmediate_eq_ok.mp hb
      exact ⟨hn, h⟩
  · rintro ⟨hn, h⟩
    exact .inr ⟨(), _, call_beginImmediate_eq_ok.mpr ⟨hn, rfl⟩, h⟩

theorem call_check_bind_overflow {x : Except LocalOrderError α} (hx : x ≠ .error .overflow)
    {f : α → Method Connection LocalOrderError β} :
    (check x >>= f).call c = (.error .overflow, c') ↔
      ∃ a, x = .ok a ∧ (f a).call c = (.error .overflow, c') := by
  rw [call_check_bind_eq_error]
  constructor
  · rintro (⟨h, -⟩ | h)
    · exact (hx h).elim
    · exact h
  · exact .inr

end Calls

open LocalPaperOrderStore

/-- The number of changed rows is read after an update. -/
def _checkChanges (refused : Statement → Option SqliteError) :
    Option LocalPaperOrderState → Method Connection LocalOrderError Unit
  | none => pure ()
  | some _ => statement refused .selectChanges

/-- The statements of a call, up to its commit. -/
def _applyEvent (refused : Statement → Option SqliteError) (event : LocalPaperOrderEvent) :
    Method Connection LocalOrderError LocalPaperOrderTransition := do
  statement refused .beginImmediate
  beginImmediate
  statement refused .selectIntent
  let c ← read view
  let intent ← check (_getIntent c event.authorizationSha256)
  statement refused .selectState
  let previous ← check (_stateFromRow (c.selectState event.authorizationSha256))
  let transition ← check (applyLocalOrderEvent intent previous event)
  statement refused .insertEvent
  execute (_insertEvent event)
  statement refused .writeState
  execute (_writeState previous transition.current)
  _checkChanges refused previous
  statement refused .commit
  return transition

/-- The clauses after the body catch the errors of the store and of the database. -/
def apply (refused : Statement → Option SqliteError) (event : LocalPaperOrderEvent) :
    Method Connection LocalOrderError LocalPaperOrderTransition :=
  onErrorOf (· ≠ .overflow) (do
    let transition ← _applyEvent refused event
    commit
    return transition) rollback

/-- The checks of the store pass in this state. -/
def Accepts (db : Database) (event : LocalPaperOrderEvent) : Prop :=
  ∃ intent previous transition, _getIntent db event.authorizationSha256 = .ok intent ∧
    _stateFromRow (db.selectState event.authorizationSha256) = .ok previous ∧
    applyLocalOrderEvent intent previous event = .ok transition

/-- The call reaches the insertion of an event whose time fits no column. -/
structure Unbindable (refused : Statement → Option SqliteError) (c : Connection)
    (event : LocalPaperOrderEvent) : Prop where
  closed : c.transaction = none
  reached : refused .beginImmediate = none ∧ refused .selectIntent = none ∧
    refused .selectState = none ∧ refused .insertEvent = none
  accepted : Accepts c.database event
  large : maxInteger < event.eventTimeMs

theorem keeps_applyEvent (refused : Statement → Option SqliteError) (event : LocalPaperOrderEvent) :
    Keeps (·.database) (_applyEvent refused event) := by
  unfold _applyEvent
  apply keeps_statement.bind
  intro _
  apply keeps_beginImmediate.bind
  intro _
  apply keeps_statement.bind
  intro _
  apply (keeps_read _).bind
  intro db
  apply (keeps_check _).bind
  intro intent
  apply keeps_statement.bind
  intro _
  apply (keeps_check _).bind
  intro previous
  apply (keeps_check _).bind
  intro transition
  apply keeps_statement.bind
  intro _
  apply (keeps_execute _).bind
  intro _
  apply keeps_statement.bind
  intro _
  apply (keeps_execute _).bind
  intro _
  have hchanges : Keeps (·.database) (_checkChanges refused previous) := by
    cases previous with
    | none => exact keeps_pure _
    | some p => exact keeps_statement
  apply hchanges.bind
  intro _
  apply keeps_statement.bind
  intro _
  exact keeps_pure _

/-- A call that returned did in one transaction what the store does atomically. -/
theorem applyEvent_eq_ok {refused : Statement → Option SqliteError} {event : LocalPaperOrderEvent}
    {c c' : Connection} {t : LocalPaperOrderTransition}
    (h : (_applyEvent refused event).call c = (.ok t, c')) :
    c.transaction = none ∧ ∃ db, (LocalPaperOrderStore.apply event).call c.database = (.ok t, db) ∧
      c' = ⟨c.database, some db⟩ := by
  unfold _applyEvent at h
  obtain ⟨-, h⟩ := call_statement_bind_eq_ok.mp h
  obtain ⟨_, c₁, hbegin, h⟩ := call_bind_eq_ok.mp h
  obtain ⟨hclosed, rfl⟩ := call_beginImmediate_eq_ok.mp hbegin
  obtain ⟨-, h⟩ := call_statement_bind_eq_ok.mp h
  rw [call_read_bind] at h
  obtain ⟨intent, hintent, h⟩ := call_check_bind_eq_ok.mp h
  obtain ⟨-, h⟩ := call_statement_bind_eq_ok.mp h
  obtain ⟨previous, hprevious, h⟩ := call_check_bind_eq_ok.mp h
  obtain ⟨transition, htransition, h⟩ := call_check_bind_eq_ok.mp h
  obtain ⟨-, h⟩ := call_statement_bind_eq_ok.mp h
  obtain ⟨_, c₂, hexecute, h⟩ := call_bind_eq_ok.mp h
  obtain ⟨db₁, hinsert, rfl⟩ := call_execute_eq_ok.mp hexecute
  obtain ⟨-, h⟩ := call_statement_bind_eq_ok.mp h
  obtain ⟨_, c₃, hexecute', h⟩ := call_bind_eq_ok.mp h
  obtain ⟨db₂, hwrite, rfl⟩ := call_execute_eq_ok.mp hexecute'
  obtain ⟨_, c₄, hchanges, h⟩ := call_bind_eq_ok.mp h
  obtain ⟨-, h⟩ := call_statement_bind_eq_ok.mp h
  have hsame : c₄ = ⟨c.database, some db₂⟩ := by
    cases previous with
    | none =>
      cases hchanges
      rfl
    | some p => exact congrArg Prod.snd hchanges.symm
  rw [call_pure] at h
  cases h
  refine ⟨hclosed, db₂, ?_, hsame⟩
  unfold LocalPaperOrderStore.apply
  rw [call_atomic_eq_ok, call_read_bind]
  apply call_check_bind_eq_ok.mpr
  refine ⟨intent, hintent, ?_⟩
  apply call_check_bind_eq_ok.mpr
  refine ⟨previous, hprevious, ?_⟩
  apply call_check_bind_eq_ok.mpr
  refine ⟨_, htransition, ?_⟩
  apply call_bind_eq_ok.mpr
  refine ⟨_, db₁, hinsert, ?_⟩
  apply call_bind_eq_ok.mpr
  exact ⟨_, db₂, hwrite, rfl⟩

theorem getIntent_ne_overflow (db : Database) (a : String) : _getIntent db a ≠ .error .overflow := by
  unfold _getIntent
  split
  · simp
  · cases LocalPaperIntentRecord.build _ <;> simp [Except.mapError]

theorem stateFromRow_ne_overflow (r : Option OrderStateRow) :
    _stateFromRow r ≠ .error .overflow := by
  unfold _stateFromRow
  split
  · simp [pure, Except.pure]
  · split
    · simp
    · intro h
      rcases bind_eq_error.mp h with h | ⟨_, -, h⟩
      · cases (raiseIf_eq_error.mp h).2
      · cases h

theorem checkPrevious_ne_overflow (intent : LocalPaperIntentRecord) (event : LocalPaperOrderEvent)
    (p : Option LocalPaperOrderState) : _checkPrevious intent event p ≠ .error .overflow := by
  intro h
  cases p with
  | none =>
    unfold _checkPrevious at h
    simp only [bind_eq_error, raiseIf_eq_error] at h
    simp [pure, Except.pure] at h
  | some p =>
    unfold _checkPrevious at h
    simp only [bind_eq_error, raiseIf_eq_error] at h
    simp [pure, Except.pure] at h

theorem build_ne_overflow (f : LocalPaperOrderState.Fields) :
    LocalPaperOrderState.build f ≠ .error .overflow := by
  intro h
  have h := construct_eq_error.mp h
  unfold LocalPaperOrderState.Fields.postInit LocalPaperOrderState.Fields._predecessor at h
  simp only [bind_eq_error, raiseIf_eq_error] at h
  split at h <;> simp [raiseIf_eq_error] at h

theorem applyLocalOrderEvent_ne_overflow (intent : LocalPaperIntentRecord)
    (p : Option LocalPaperOrderState) (event : LocalPaperOrderEvent) :
    applyLocalOrderEvent intent p event ≠ .error .overflow := by
  unfold applyLocalOrderEvent
  split
  · simp
  · rename_i e he
    rintro ⟨⟩
    unfold _nextState at he
    rcases bind_eq_error.mp he with h | ⟨_, -, h⟩
    · cases (raiseIf_eq_error.mp h).2
    · rcases bind_eq_error.mp h with h | ⟨_, -, h⟩
      · exact checkPrevious_ne_overflow intent event p h
      · exact build_ne_overflow _ h

variable {db db' : Database}

theorem insertEvent_ne_overflow {event : LocalPaperOrderEvent}
    (h : ¬ maxInteger < event.eventTimeMs) : (_insertEvent event).call db ≠
    (.error .overflow, db') := by
  intro hcall
  unfold _insertEvent at hcall
  rw [call_read_bind] at hcall
  rcases call_bind_eq_error.mp hcall with hcheck | ⟨_, _, -, hcall⟩
  · exact h (raiseIf_eq_error.mp (congrArg Prod.fst hcheck)).1
  · rcases call_bind_eq_error.mp hcall with hcheck | ⟨_, _, -, hcall⟩
    · cases (raiseIf_eq_error.mp (congrArg Prod.fst hcheck)).2
    · cases hcall

theorem insertEvent_overflow {event : LocalPaperOrderEvent} (h : maxInteger < event.eventTimeMs)
    (db : Database) : (_insertEvent event).call db = (.error .overflow, db) := by
  unfold _insertEvent
  rw [call_read_bind, raiseIf_pos h]
  rfl

theorem writeState_ne_overflow {p : Option LocalPaperOrderState} {s : LocalPaperOrderState} :
    (_writeState p s).call db ≠ (.error .overflow, db') := by
  intro hcall
  unfold _writeState at hcall
  rw [call_read_bind] at hcall
  cases p with
  | none =>
    rcases call_bind_eq_error.mp hcall with hcheck | ⟨_, _, -, hcall⟩
    · cases (raiseIf_eq_error.mp (congrArg Prod.fst hcheck)).2
    · cases hcall
  | some p =>
    rcases call_bind_eq_error.mp hcall with hcheck | ⟨_, _, -, hcall⟩
    · cases (raiseIf_eq_error.mp (congrArg Prod.fst hcheck)).2
    · rcases call_bind_eq_error.mp hcall with hcheck | ⟨_, _, -, hcall⟩
      · cases (raiseIf_eq_error.mp (congrArg Prod.fst hcheck)).2
      · cases hcall

/-- Only the insertion of an event whose time fits no column raises an error that the store
does not know. -/
theorem unbindable_of_overflow {refused : Statement → Option SqliteError}
    {event : LocalPaperOrderEvent} {c c' : Connection}
    (h : (_applyEvent refused event).call c = (.error .overflow, c')) :
    Unbindable refused c event := by
  unfold _applyEvent at h
  obtain ⟨hb, h⟩ := call_statement_bind_overflow.mp h
  obtain ⟨hclosed, h⟩ := call_beginImmediate_bind_overflow.mp h
  obtain ⟨hi, h⟩ := call_statement_bind_overflow.mp h
  rw [call_read_bind] at h
  obtain ⟨intent, hintent, h⟩ := (call_check_bind_overflow (getIntent_ne_overflow _ _)).mp h
  obtain ⟨hs, h⟩ := call_statement_bind_overflow.mp h
  obtain ⟨previous, hprevious, h⟩ := (call_check_bind_overflow (stateFromRow_ne_overflow _)).mp h
  obtain ⟨t, ht, h⟩ := (call_check_bind_overflow (applyLocalOrderEvent_ne_overflow _ _ _)).mp h
  obtain ⟨hins, h⟩ := call_statement_bind_overflow.mp h
  refine ⟨hclosed, ⟨hb, hi, hs, hins⟩, ⟨intent, previous, t, hintent, hprevious, ht⟩, ?_⟩
  -- every later step raises an error of the store
  by_contra hfits
  rcases call_bind_eq_error.mp h with h | ⟨_, c₁, -, h⟩
  · obtain ⟨db, hexecute, -⟩ := call_execute_eq_error.mp h
    exact insertEvent_ne_overflow hfits hexecute
  obtain ⟨-, h⟩ := call_statement_bind_overflow.mp h
  rcases call_bind_eq_error.mp h with h | ⟨_, c₂, -, h⟩
  · obtain ⟨db, hexecute, -⟩ := call_execute_eq_error.mp h
    exact writeState_ne_overflow hexecute
  rcases call_bind_eq_error.mp h with h | ⟨_, c₃, -, h⟩
  · cases previous with
    | none => cases h
    | some p => exact statement_ne_overflow h
  obtain ⟨-, h⟩ := call_statement_bind_overflow.mp h
  cases h

/-- Then the transaction it began stays open. -/
theorem applyEvent_of_unbindable {refused : Statement → Option SqliteError}
    {event : LocalPaperOrderEvent} {c : Connection} (h : Unbindable refused c event) :
    (_applyEvent refused event).call c =
      (.error .overflow, ⟨c.database, some c.database⟩) := by
  obtain ⟨hclosed, ⟨hb, hi, hs, hins⟩, ⟨intent, previous, t, hintent, hprevious, ht⟩, hlarge⟩ := h
  unfold _applyEvent
  apply call_statement_bind_overflow.mpr
  refine ⟨hb, ?_⟩
  apply call_beginImmediate_bind_overflow.mpr
  refine ⟨hclosed, ?_⟩
  apply call_statement_bind_overflow.mpr
  refine ⟨hi, ?_⟩
  rw [call_read_bind]
  apply (call_check_bind_overflow (getIntent_ne_overflow _ _)).mpr
  refine ⟨intent, hintent, ?_⟩
  apply call_statement_bind_overflow.mpr
  refine ⟨hs, ?_⟩
  apply (call_check_bind_overflow (stateFromRow_ne_overflow _)).mpr
  refine ⟨previous, hprevious, ?_⟩
  apply (call_check_bind_overflow (applyLocalOrderEvent_ne_overflow _ _ _)).mpr
  refine ⟨t, ht, ?_⟩
  apply call_statement_bind_overflow.mpr
  refine ⟨hins, ?_⟩
  apply call_bind_eq_error.mpr
  exact .inl (call_execute_eq_error.mpr ⟨_, insertEvent_overflow hlarge _, rfl⟩)

section OneCall
variable {refused : Statement → Option SqliteError} {event : LocalPaperOrderEvent} {c : Connection}

/-- A call that returns commits what the store does atomically, and one that raises commits
nothing. The transaction is closed, unless the time of the event fits no column. -/
theorem apply_cases (refused : Statement → Option SqliteError) (event : LocalPaperOrderEvent)
    (c : Connection) :
    ((apply refused event).Returns c ∧ ¬ Unbindable refused c event ∧ ∃ t db,
        (LocalPaperOrderStore.apply event).call c.database = (.ok t, db) ∧
        (apply refused event).after c = ⟨db, none⟩) ∨
      (¬ (apply refused event).Returns c ∧ ¬ Unbindable refused c event ∧
        (apply refused event).after c = ⟨c.database, none⟩) ∨
      (¬ (apply refused event).Returns c ∧ Unbindable refused c event ∧
        (apply refused event).after c = ⟨c.database, some c.database⟩) := by
  rcases h : (_applyEvent refused event).call c with ⟨r, c'⟩
  cases r with
  | ok t =>
    obtain ⟨-, db, hdb, rfl⟩ := applyEvent_eq_ok h
    have hbody : (do
        let transition ← _applyEvent refused event
        commit
        return transition : Method Connection LocalOrderError LocalPaperOrderTransition).call c =
          (.ok t, ⟨db, none⟩) := call_bind_eq_ok.mpr ⟨t, _, h, rfl⟩
    have hcall : (apply refused event).call c = (.ok t, ⟨db, none⟩) := call_onErrorOf_of_ok hbody
    refine .inl ⟨⟨t, congrArg Prod.fst hcall⟩, ?_, t, db, hdb, congrArg Prod.snd hcall⟩
    intro hun
    rw [applyEvent_of_unbindable hun] at h
    cases h
  | error e =>
    have hbody : (do
        let transition ← _applyEvent refused event
        commit
        return transition : Method Connection LocalOrderError LocalPaperOrderTransition).call c =
          (.error e, c') := call_bind_eq_error.mpr (.inl h)
    have hcall : (apply refused event).call c =
        (.error e, if e ≠ .overflow then rollback.after c' else c') :=
      call_onErrorOf_of_error hbody
    have hraises : ¬ (apply refused event).Returns c := by
      rintro ⟨t, ht⟩
      rw [hcall] at ht
      cases ht
    have hkept : c'.database = c.database := (keeps_applyEvent refused event).call_eq h
    by_cases he : e = .overflow
    · subst he
      have hun := unbindable_of_overflow h
      rw [applyEvent_of_unbindable hun] at h
      cases h
      exact .inr (.inr ⟨hraises, hun, congrArg Prod.snd hcall⟩)
    · refine .inr (.inl ⟨hraises, ?_, ?_⟩)
      · intro hun
        rw [applyEvent_of_unbindable hun] at h
        cases h
        exact he rfl
      · have := congrArg Prod.snd hcall
        simp only [ne_eq, he, not_false_eq_true, if_true] at this
        rw [← hkept]
        exact this

end OneCall

end Connection

end TradingLab
