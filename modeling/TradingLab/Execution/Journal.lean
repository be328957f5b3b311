import TradingLab.Execution.Contracts
import TradingLab.Execution.Database

/-!
# The intent journal

An accepted decision becomes one durable intent. The authorization is the primary
key and doubles as the identity of the effect; recording the same intent again
returns the stored one.
-/

namespace TradingLab

open Method

/-- Errors of the journal; a conflict is one of them. -/
inductive ExecutionJournalError where
  | failed (message : String)
  | conflict (message : String)
deriving Repr, DecidableEq

namespace IntentRow

def material (r : IntentRow) : Json := .dict [
  ("schema_version", .int 1),
  ("authorization_sha256", .str r.authorizationSha256),
  ("effect_sha256", .str r.effectSha256),
  ("decision_sha256", .str r.decisionSha256),
  ("readiness_sha256", .str r.readinessSha256),
  ("action", .str r.action),
  ("approved_quantity", .str r.approvedQuantity),
  ("policy_id", .str r.policyId)]

def expectedSha256 (r : IntentRow) : String := r.material.sha256

def postInit (r : IntentRow) : Except ExecutionJournalError Unit := do
  raiseIf (¬ [r.authorizationSha256, r.effectSha256, r.decisionSha256, r.readinessSha256,
      r.intentSha256].all Sha256.isHexDigest) (.failed "Stored intent digest is invalid")
  raiseIf (r.effectSha256 ≠ r.authorizationSha256)
    (.failed "Local Paper effect identity differs from its authorization")
  raiseIf ((r.action ≠ "ENTER_LONG" ∧ r.action ≠ "EXIT_LONG") ∨ r.approvedQuantity = "" ∨
      r.policyId ≠ executionPolicyId) (.failed "Stored intent fields are invalid")
  raiseIf (r.intentSha256 ≠ r.expectedSha256) (.failed "Stored intent failed digest verification")

end IntentRow

/-- A row of the journal that passed the check of the canonical contract. -/
structure LocalPaperIntentRecord extends IntentRow where
  valid : toIntentRow.postInit = .ok ()
deriving DecidableEq

namespace LocalPaperIntentRecord

def build (r : IntentRow) : Except ExecutionJournalError LocalPaperIntentRecord :=
  construct r.postInit fun h => ⟨r, h⟩

theorem build_eq_ok {r : IntentRow} {i : LocalPaperIntentRecord} :
    build r = .ok i ↔ i.toIntentRow = r := by
  unfold build
  rw [construct_eq_ok]
  constructor
  · rintro ⟨_, rfl⟩
    rfl
  · rintro rfl
    exact ⟨i.valid, rfl⟩

/-- The intent row of an accepted decision. -/
def rowOfDecision (decision : LocalPaperExecutionDecision) (approvedQuantity : String) : IntentRow :=
  let row : IntentRow := {
    authorizationSha256 := decision.authorizationSha256
    effectSha256 := decision.authorizationSha256
    decisionSha256 := decision.decisionSha256
    readinessSha256 := decision.readiness.readinessSha256
    action := decision.action.value
    approvedQuantity := approvedQuantity
    policyId := decision.policy.policyId
    intentSha256 := "" }
  { row with intentSha256 := row.expectedSha256 }

def fromDecision (decision : LocalPaperExecutionDecision) :
    Except ExecutionJournalError LocalPaperIntentRecord :=
  match decision.disposition, decision.approvedQuantity with
  | .acceptLocalPaper, some quantity => build (rowOfDecision decision quantity)
  | _, _ => .error (.failed "Only an accepted local Paper decision can enter the journal")

theorem facts (i : LocalPaperIntentRecord) :
    Sha256.isHexDigest i.authorizationSha256 ∧ Sha256.isHexDigest i.intentSha256 ∧
      (i.action = "ENTER_LONG" ∨ i.action = "EXIT_LONG") := by
  have h := i.valid
  unfold IntentRow.postInit at h
  simp only [unit_bind_eq_ok, raiseIf_eq_ok, not_not, List.all_cons, List.all_nil, Bool.and_true,
    Bool.and_eq_true] at h
  obtain ⟨⟨ha, -, -, -, hi⟩, -, hact, -⟩ := h
  refine ⟨ha, hi, ?_⟩
  by_contra hn
  exact hact (.inl (not_or.mp hn))

end LocalPaperIntentRecord

namespace ExecutionIntentJournal

def _rowToRecord (row : IntentRow) : Except ExecutionJournalError LocalPaperIntentRecord :=
  (LocalPaperIntentRecord.build row).mapError fun _ =>
    .failed "Stored intent violates the canonical contract"

/-- A row that violates a key of the table. -/
def violates (db : Database) (row : IntentRow) : Prop :=
  ∃ r ∈ db.intents, r.authorizationSha256 = row.authorizationSha256 ∨
    r.effectSha256 = row.effectSha256 ∨ r.intentSha256 = row.intentSha256

instance (db : Database) (row : IntentRow) : Decidable (violates db row) := by
  unfold violates
  infer_instance

def _insert (record : LocalPaperIntentRecord) : Method Database ExecutionJournalError Unit := do
  let db ← read id
  check (raiseIf (violates db record.toIntentRow)
    (.conflict "Intent identity conflicts with durable journal state"))
  modify fun db => { db with intents := db.intents ++ [record.toIntentRow] }

def record (decision : LocalPaperExecutionDecision) :
    Method Database ExecutionJournalError LocalPaperIntentRecord := do
  let record ← check (LocalPaperIntentRecord.fromDecision decision)
  atomic do
    let db ← read id
    match db.selectIntent record.authorizationSha256 with
    | none =>
        _insert record
        return record
    | some row =>
        let existing ← check (_rowToRecord row)
        check (raiseIf (existing ≠ record)
          (.conflict "Authorization identity conflicts with stored intent"))
        return existing

/-- Recording either repeats a durable intent or appends a new one whose keys are free. -/
theorem record_cases {d : LocalPaperExecutionDecision} {db db' : Database}
    {r : Except ExecutionJournalError LocalPaperIntentRecord} (h : (record d).call db = (r, db')) :
    db' = db ∨ ∃ i, LocalPaperIntentRecord.fromDecision d = .ok i ∧ ¬ violates db i.toIntentRow ∧
      db' = { db with intents := db.intents ++ [i.toIntentRow] } := by
  unfold record at h
  rw [call_bind, call_check] at h
  cases hi : LocalPaperIntentRecord.fromDecision d with
  | error e =>
    rw [hi] at h
    cases h
    exact .inl rfl
  | ok i =>
    rw [hi] at h
    dsimp only at h
    cases r with
    | error e => exact .inl (call_atomic_eq_error h)
    | ok i' =>
      rw [call_atomic_eq_ok, call_read_bind] at h
      dsimp only [id] at h
      cases hsel : db.selectIntent i.authorizationSha256 with
      | none =>
        rw [hsel] at h
        obtain ⟨⟨⟩, t, ht, hrest⟩ := call_bind_eq_ok.mp h
        unfold _insert at ht
        simp only [call_read_bind, call_check_bind_eq_ok, raiseIf_eq_ok, exists_const,
          call_modify_eq_ok, id] at ht
        cases hrest
        exact .inr ⟨i, rfl, ht.1, ht.2⟩
      | some row =>
        rw [hsel] at h
        dsimp only at h
        simp only [call_check_bind_eq_ok] at h
        obtain ⟨existing, -, u, -, h⟩ := h
        cases h
        exact .inl rfl

end ExecutionIntentJournal

end TradingLab
