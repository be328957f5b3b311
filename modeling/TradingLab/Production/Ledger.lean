import TradingLab.Factory.Results
import TradingLab.Json.Compare

/-!
# The result ledger

Every raw candidate ends with one record that is sealed by its digest. A list of
records is reconciled with the raw candidates and the executable freeze: it is
complete when it has one admissible record for every candidate, and is then
summarised by state and by family.
-/

namespace TradingLab.Production

/-- What the ledger raises: a contract violation, a key that is not there, or the plain errors of
a value of the wrong kind and of a value without a text. -/
inductive LedgerFailure where
  | mcf (message : String)
  | keyError (key : String)
  | typeError
  | valueError
deriving Repr, DecidableEq

def LedgerFailure.ofFactory : Factory.Failure → LedgerFailure
  | .mcf message => .mcf message
  | .typeError => .typeError
  | _ => .valueError

def ledgerVersion : String := "MCF_PRODUCTION_LEDGER/1.0.0"

def structurallyInvalid : String := "STRUCTURALLY_INVALID"
def blockedImplementation : String := "BLOCKED_IMPLEMENTATION"
def developmentFail : String := "DEVELOPMENT_FAIL"
def f0f3Pass : String := "F0_F3_PASS"

def finalStates : List String := [structurallyInvalid, blockedImplementation, developmentFail, f0f3Pass]

def performanceStates : List String := [developmentFail, f0f3Pass]

def ledgerSafety : Json := .dict [
  ("paper_research_only", .bool true), ("fresh_oos_read", .bool false),
  ("recent_reserve_read", .bool false), ("p10_read", .bool false), ("p10_write", .bool false),
  ("futures", .bool false), ("leverage", .bool false), ("short", .bool false), ("live", .bool false),
  ("order_endpoint", .bool false), ("ai_direct_execution", .bool false), ("p11_locked", .bool true)]

/-- A raw candidate, as far as the ledger reads it. -/
structure RawCandidate where
  ordinal : ℤ
  candidateId : String
  candidateSpecSha256 : String
  family : String
  familyId : String
  state : String
  failureReasons : Option (List String)
deriving Repr, DecidableEq

/-- The executable candidates with their specifications, and the blocked ones. -/
structure ExecutableFreeze where
  registeredCandidates : List (String × String)
  blocked : List RawCandidate
deriving Repr, DecidableEq

structure Record where
  members : JsonMembers
  held : members.Held

def digestOf (v : Json) : Except LedgerFailure String :=
  (Factory.digestText v).mapError LedgerFailure.ofFactory

def itemsOf (v : Json) : Except LedgerFailure (List Json) :=
  (Factory.tupleOf v).mapError LedgerFailure.ofFactory

def fieldOf (members : JsonMembers) (key : String) : Except LedgerFailure Json :=
  ((members.lookup key).map Except.ok).getD (.error (.keyError key))

def agrees (members : JsonMembers) (key : String) (v : Json) : Bool :=
  ((members.lookup key).map fun w => w.same v).getD false

/-- What a record takes from the result of a candidate. -/
structure Evidence where
  resultSha256 : Json
  dailyReturnSha256 : Json
  perSymbolDailyReturnSha256 : Json
  failures : List Json
deriving Repr, DecidableEq

def noEvidence : Evidence := ⟨.null, .null, .null, []⟩

/-- The evidence of a result in the state it claims. -/
def resultEvidence (candidate : RawCandidate) (state : String) (result : JsonMembers) :
    Except LedgerFailure Evidence := do
  let valid ← (Factory.validResult result).mapError LedgerFailure.ofFactory
  raiseIf (valid = false) (.mcf "performance state requires canonical MCF-03 result")
  raiseIf (result.lookup "candidate_id" ≠ some (.str candidate.candidateId) ∨
    result.lookup "candidate_spec_sha256" ≠ some (.str candidate.candidateSpecSha256))
    (.mcf "result/candidate identity mismatch")
  raiseIf (result.lookup "evidence_partition" ≠ some (.str "DEVELOPMENT"))
    (.mcf "non-Development production result")
  raiseIf (result.lookup "f0_f3_state" ≠ some (.str state)) (.mcf "ledger/result state mismatch")
  raiseIf (agrees result "safety" ledgerSafety = false) (.mcf "production result safety mismatch")
  let sha ← fieldOf result "result_sha256"
  let daily ← fieldOf result "daily_return_series"
  let dailySha ← digestOf daily
  let perSymbol ← fieldOf result "per_symbol_daily_return_series"
  let perSymbolSha ← digestOf perSymbol
  let failures ← itemsOf ((result.lookup "failure_reasons").getD (.list []))
  return ⟨sha, .str dailySha, .str perSymbolSha, failures⟩

def evidenceOf (candidate : RawCandidate) (state : String) (result : Option JsonMembers) :
    Except LedgerFailure Evidence :=
  if state ∈ performanceStates then
    match result with
    | none => .error (.mcf "performance state requires canonical MCF-03 result")
    | some result => resultEvidence candidate state result
  else
    match result with
    | none => .ok noEvidence
    | some _ => .error (.mcf "non-performance state cannot attach performance result")

def isBlank (text : String) : Bool := (Decimal.strip text.toList).isEmpty

/-- The failures of a record, next to the reason of an implementation blocker. -/
def failuresOf (candidate : RawCandidate) (state : String) (blockerReason : Option String)
    (failures : List Json) : Except LedgerFailure (List Json) :=
  if state = blockedImplementation then do
    raiseIf ((blockerReason.map isBlank).getD true = true) (.mcf "implementation blocker requires reason")
    return [.str blockedImplementation]
  else if blockerReason.isSome then .error (.mcf "unexpected blocker reason")
  else if state = structurallyInvalid then
    .ok ((candidate.failureReasons.getD [structurallyInvalid]).map .str)
  else .ok failures

/-- A record without its digest. -/
def recordBody (candidate : RawCandidate) (state : String) (blockerReason : Option String)
    (evidence : Evidence) (reasons : List Json) : JsonMembers :=
  [("schema", .str ledgerVersion), ("ordinal", .int candidate.ordinal),
    ("candidate_id", .str candidate.candidateId),
    ("candidate_spec_sha256", .str candidate.candidateSpecSha256),
    ("family", .str candidate.family), ("family_id", .str candidate.familyId), ("state", .str state),
    ("failure_reasons", Json.list reasons), ("implementation_blocker", Json.optionStr blockerReason),
    ("result_sha256", evidence.resultSha256), ("daily_return_sha256", evidence.dailyReturnSha256),
    ("per_symbol_daily_return_sha256", evidence.perSymbolDailyReturnSha256),
    ("evidence_partition", .str "DEVELOPMENT"), ("safety", ledgerSafety)].foldl
      (fun members entry => members.insert entry.1 entry.2) .nil

/-- The final record of a candidate. -/
def makeRecord (candidate : RawCandidate) (state : String) (result : Option JsonMembers)
    (blockerReason : Option String) : Except LedgerFailure JsonMembers := do
  raiseIf (state ∉ finalStates) (.mcf "invalid production result state")
  let evidence ← evidenceOf candidate state result
  let failures ← failuresOf candidate state blockerReason evidence.failures
  match Json.sortedSet failures with
  | none => .error .typeError
  | some reasons =>
      let body := recordBody candidate state blockerReason evidence reasons
      let sha ← digestOf (.object body)
      return body.insert "record_sha256" (.str sha)

inductive FreezeClass where
  | structural
  | blocked
  | executable (spec : String)
  | missing
deriving Repr, DecidableEq

def ExecutableFreeze.blockedIds (freeze : ExecutableFreeze) : List String :=
  freeze.blocked.map RawCandidate.candidateId

/-- The specification of an executable candidate; a later entry wins. -/
def ExecutableFreeze.spec? (freeze : ExecutableFreeze) (cid : String) : Option String :=
  freeze.registeredCandidates.reverse.lookup cid

def ExecutableFreeze.classOf (freeze : ExecutableFreeze) (candidate : RawCandidate) : FreezeClass :=
  if candidate.state = structurallyInvalid then .structural
  else if candidate.candidateId ∈ freeze.blockedIds then .blocked
  else
    match freeze.spec? candidate.candidateId with
    | some spec => .executable spec
    | none => .missing

section
-- the text of a list or of a dictionary
variable (containerText : Json → String)

/-- `str(value)` -/
def textOf : Json → String
  | .str s => s
  | .null => "None"
  | .bool b => if b then "True" else "False"
  | .int n => String.ofList (Json.intChars n)
  | .float literal =>
      match Json.Binary64.ofLiteral literal with
      | .nan => "nan"
      | .infinite negative => if negative then "-inf" else "inf"
      | x => x.repr
  | v => containerText v

def Record.candidateId (row : Record) : String :=
  textOf containerText ((row.members.lookup "candidate_id").getD (.str ""))

/-- The state of a record is one that the freeze lets its candidate have. -/
def checkState (freeze : ExecutableFreeze) (candidate : RawCandidate) (row : Record) :
    Except LedgerFailure Unit :=
  let state := row.members.lookup "state"
  match freeze.classOf candidate with
  | .structural =>
      raiseIf (state ≠ some (.str structurallyInvalid)) (.mcf "structural invalid candidate changed state")
  | .blocked =>
      raiseIf (state ≠ some (.str blockedImplementation)) (.mcf "implementation blocker changed state")
  | .executable spec => do
      raiseIf (∃ v ∈ state, v.isHashable = false) .typeError
      raiseIf (∀ s ∈ performanceStates, state ≠ some (.str s))
        (.mcf "executable candidate missing final Development state")
      raiseIf (row.members.lookup "candidate_spec_sha256" ≠ some (.str spec))
        (.mcf "executable freeze spec mismatch")
  | .missing => .error (.mcf "valid candidate missing from executable/blocker freeze")

def checkRow (freeze : ExecutableFreeze) (candidate : RawCandidate) (row : Record) :
    Except LedgerFailure Unit := do
  raiseIf (row.members.lookup "schema" ≠ some (.str ledgerVersion)) (.mcf "wrong production ledger schema")
  let sha ← digestOf (.object (row.members.erase "record_sha256"))
  raiseIf (row.members.lookup "record_sha256" ≠ some (.str sha)) (.mcf "production record digest mismatch")
  raiseIf (row.members.lookup "candidate_spec_sha256" ≠ some (.str candidate.candidateSpecSha256))
    (.mcf "production record spec mismatch")
  raiseIf (agrees row.members "ordinal" (.int candidate.ordinal) = false)
    (.mcf "production record ordinal mismatch")
  raiseIf (row.members.lookup "evidence_partition" ≠ some (.str "DEVELOPMENT") ∨
    agrees row.members "safety" ledgerSafety = false)
    (.mcf "production record evidence/safety mismatch")
  checkState freeze candidate row

/-- Add a record to those found so far, by candidate. -/
def addRow (raw : List RawCandidate) (freeze : ExecutableFreeze)
    (found : List (RawCandidate × Record)) (row : Record) :
    Except LedgerFailure (List (RawCandidate × Record)) :=
  match raw.find? fun candidate => decide (candidate.candidateId = row.candidateId containerText) with
  | none => .error (.mcf "unknown/duplicate production result")
  | some candidate => do
      raiseIf (candidate.candidateId ∈ found.map fun entry => entry.1.candidateId)
        (.mcf "unknown/duplicate production result")
      checkRow freeze candidate row
      return found ++ [(candidate, row)]

end

/-- The family and the failure reasons of a record, as they are counted. -/
def countedOf (row : Record) : Except LedgerFailure (Json × List Json) := do
  let family ← fieldOf row.members "family"
  raiseIf (family.isHashable = false) .typeError
  let reasons ← fieldOf row.members "failure_reasons"
  let items ← itemsOf reasons
  raiseIf (items.all Json.isHashable = false) .typeError
  return (family, items)

/-- The failures of one family. -/
def familyCounter (counted : List (Json × List Json)) (family : Json) :
    Option (Json × List (Json × ℕ)) :=
  (Json.tally ((counted.filter fun entry => decide (family.scalar? = entry.1.scalar?)).flatMap
    Prod.snd)).map fun counter => (family, counter)

/-- The failures of every family, in order. -/
def familyFailures (counted : List (Json × List Json)) :
    Except LedgerFailure (List (Json × List (Json × ℕ))) :=
  match (Json.sortedSet (counted.map Prod.fst)).bind fun families =>
      families.mapM (familyCounter counted) with
  | none => .error .typeError
  | some summary => .ok summary

structure Reconciliation where
  rawCandidateCount : ℕ
  stateCounts : List (String × ℕ)
  f0f3PasserCount : ℕ
  familyFailureSummary : List (Json × List (Json × ℕ))
  ledgerSha256 : String
deriving Repr, DecidableEq

def stateOf (row : Record) : String := ((row.members.lookup "state").bind Json.str?).getD ""

/-- The summary of the records in the order of their candidates. -/
def summarize (raw : List RawCandidate) (ordered : List Record) : Except LedgerFailure Reconciliation := do
  let states := ordered.map stateOf
  let counted ← ordered.mapM countedOf
  let families ← familyFailures counted
  let sha ← digestOf (.list (ordered.map fun row => .object row.members))
  return {
    rawCandidateCount := raw.length
    stateCounts := (Json.sortedTexts states).map fun state => (state, states.count state)
    f0f3PasserCount := states.count f0f3Pass
    familyFailureSummary := families
    ledgerSha256 := sha }

/-- Require one final record for every raw candidate. What is raised makes the batch invalid. -/
def reconcile (containerText : Json → String) (raw : List RawCandidate) (freeze : ExecutableFreeze)
    (records : List Record) : Except LedgerFailure Reconciliation := do
  raiseIf (¬ (raw.map RawCandidate.candidateId).Nodup) (.mcf "duplicate raw production candidate")
  raiseIf (∃ cid ∈ freeze.registeredCandidates.map Prod.fst, cid ∈ freeze.blockedIds)
    (.mcf "candidate both executable and blocked")
  let found ← records.foldlM (addRow containerText raw freeze) []
  raiseIf (∃ candidate ∈ raw, candidate.candidateId ∉ found.map fun entry => entry.1.candidateId)
    (.mcf "incomplete production result ledger")
  let ordered := found.mergeSort fun a b => decide (a.1.ordinal ≤ b.1.ordinal)
  summarize raw (ordered.map Prod.snd)

end TradingLab.Production
