import TradingLab.Factory.ResultDocuments
import TradingLab.Json.Compare

/-!
# The closeout of a batch

The results of a batch come in shards. Every shard is one file of rows, one row for every
ordinal of its range, and a row names the candidate it is about. A batch is complete
when every registered candidate has its row.
-/

namespace TradingLab.Factory.Ledger

open List Json

/-- What the closeout raises. Each of these makes the batch invalid. -/
inductive CloseoutFailure where
  | mcf (message : String)
  | keyError (key : String)
  | typeError
  | valueError
  | osError
deriving Repr, DecidableEq

def CloseoutFailure.ofFactory : Failure → CloseoutFailure
  | .mcf message => .mcf message
  | .typeError => .typeError
  | .missingFile => .osError
  | _ => .valueError

def structurallyInvalid : String := "STRUCTURALLY_INVALID"

def finalStates : List String := [structurallyInvalid, "DEVELOPMENT_FAIL",
  "DEVELOPMENT_INTERESTING_NOT_QUALIFIED", "DEVELOPMENT_GATE_PASS", "DUPLICATE_OR_REDUNDANT",
  "EXACT_RECOMPUTE_FAIL"]

def ledgerSafety : Json := .dict [("p10_read", .bool false), ("p10_write", .bool false),
  ("fresh_oos_read", .bool false), ("recent_reserve_read", .bool false),
  ("live_master_lock", .str "OFF")]

def requiredFields : List String := ["ordinal", "candidate_id", "candidate_spec_sha256", "batch_id",
  "shard_id", "screening_engine_version", "dataset_id", "evidence_partition", "result_state",
  "failure_reasons", "opportunity_metrics", "base_economics", "stress_economics",
  "temporal_metrics", "exact_recompute_state", "safety", "result_record_sha256"]

/-- The ordinals from the start up to the end, the end not among them. -/
structure Shard where
  shardId : String
  start : ℤ
  stop : ℤ
deriving Repr, DecidableEq

def Shard.Covers (shard : Shard) (ordinal : ℤ) : Prop :=
  shard.start ≤ ordinal ∧ ordinal < shard.stop

instance (shard : Shard) (ordinal : ℤ) : Decidable (shard.Covers ordinal) :=
  inferInstanceAs (Decidable (_ ∧ _))

def Shard.ordinals (shard : Shard) : List ℤ :=
  (List.range (shard.stop - shard.start).toNat).map fun i : ℕ => shard.start + i

structure Registration where
  ordinal : ℤ
  candidateId : String
  candidateSpecSha256 : String
  familyManifestSha256 : String
  parameterVector : JsonMembers
  batchId : String
  state : Option String
  failureReasons : Option (List String)
deriving Repr, DecidableEq

def Registration.toDict (r : Registration) : Json :=
  let row := [("ordinal", .int r.ordinal), ("candidate_id", .str r.candidateId),
    ("candidate_spec_sha256", .str r.candidateSpecSha256),
    ("family_manifest_sha256", .str r.familyManifestSha256),
    ("parameter_vector", .object r.parameterVector), ("batch_id", .str r.batchId)]
  .dict (row ++ (r.state.map fun s => ("state", Json.str s)).toList ++
    (r.failureReasons.map fun rs => ("failure_reasons", Json.list (rs.map .str))).toList)

/-- A batch, as far as the ledger reads it. -/
structure Batch where
  batchId : String
  evidencePartition : String
  rawCandidateCount : ℤ
  structuralValidCount : ℤ
  structuralInvalidCount : ℤ
  shardLayout : List Shard
  candidateLedgerSha256 : String
  safety : Json
deriving Repr, DecidableEq

def fieldOf (v : Json) (key : String) : Except CloseoutFailure Json :=
  match v with
  | .object ms => ((ms.lookup key).map Except.ok).getD (.error (.keyError key))
  | _ => .error .typeError

def agrees (members : JsonMembers) (key : String) (v : Json) : Bool :=
  ((members.lookup key).map fun w => w.same v).getD false

def textOf (v : Json) : Except CloseoutFailure (List Char) :=
  (canonicalText v).mapError .ofFactory

def digestOf (v : Json) : Except CloseoutFailure String := (digestText v).mapError .ofFactory

/-- The entries of a result row, without its digest. -/
def resultEntries (candidate : Registration) (batch : Batch) (shard : Shard)
    (datasetId state : String) (failureReasons : List String) (m : JsonMembers) :
    List (String × Json) :=
  [("ordinal", .int candidate.ordinal), ("candidate_id", .str candidate.candidateId),
    ("candidate_spec_sha256", .str candidate.candidateSpecSha256),
    ("batch_id", .str batch.batchId), ("shard_id", .str shard.shardId),
    ("screening_engine_version",
      (m.lookup "screening_engine_version").getD (.str "MCF_STRUCTURAL/1")),
    ("dataset_id", .str datasetId), ("evidence_partition", .str "DEVELOPMENT"),
    ("result_state", .str state),
    ("failure_reasons", .list ((failureReasons.insertionSort (· ≤ ·)).map .str)),
    ("opportunity_metrics", (m.lookup "opportunity_metrics").getD (.object .nil)),
    ("base_economics", (m.lookup "base_economics").getD (.object .nil)),
    ("stress_economics", (m.lookup "stress_economics").getD (.object .nil)),
    ("temporal_metrics", (m.lookup "temporal_metrics").getD (.object .nil)),
    ("exact_recompute_state", (m.lookup "exact_recompute_state").getD (.str "NOT_REQUIRED")),
    ("safety", ledgerSafety)]

def resultBody (candidate : Registration) (batch : Batch) (shard : Shard) (datasetId state : String)
    (failureReasons : List String) (m : JsonMembers) : JsonMembers :=
  (resultEntries candidate batch shard datasetId state failureReasons m).foldl
    (fun members entry => members.insert entry.1 entry.2) .nil

/-- The result row of a candidate. -/
def makeResult (candidate : Registration) (batch : Batch) (shard : Shard) (datasetId state : String)
    (failureReasons : List String) (metrics : JsonMembers) : Except CloseoutFailure JsonMembers := do
  raiseIf (state ∉ finalStates ∨ datasetId = "" ∨ batch.evidencePartition ≠ "DEVELOPMENT")
    (.mcf "invalid final result/evidence")
  raiseIf (metrics ≠ .nil ∧ agrees metrics "dataset_id" (.str datasetId) = false)
    (.mcf "screening evidence identity mismatch")
  let row := resultBody candidate batch shard datasetId state failureReasons metrics
  let sha ← digestOf (.object row)
  return row.insert "result_record_sha256" (.str sha)

/-- A shard with its file: what `guard_root` says of the directory, what is known of the path, and
the text of the file when it can be read. -/
structure ShardArtifact where
  shard : Shard
  guard : Except Failure Unit
  isSymlink : Bool
  name : String
  payload : Option (List Char)
  sha : String

/-- `bytes.splitlines()`, with the line that has been read so far. -/
def splitLines (line : List Char) : List Char → List (List Char)
  | [] => if line = [] then [] else [line]
  | '\r' :: '\n' :: cs => line :: splitLines [] cs
  | c :: cs =>
      if c = '\n' ∨ c = '\r' then line :: splitLines [] cs else splitLines (line ++ [c]) cs

def parseLine (line : List Char) : Except CloseoutFailure Json :=
  match Json.loads (String.ofList line) with
  | some v => .ok v
  | none => .error .valueError

/-- The shard belongs to the batch and has not come before. -/
def admitShard (batch : Batch) (shardIds : List String) (artifact : ShardArtifact) :
    Except CloseoutFailure Unit := do
  artifact.guard.mapError .ofFactory
  raiseIf (artifact.shard ∉ batch.shardLayout ∨ artifact.shard.shardId ∈ shardIds ∨
    artifact.isSymlink ∨ artifact.name ≠ artifact.shard.shardId ++ "-" ++ artifact.sha ++ ".jsonl")
    (.mcf "unknown/duplicate shard")

/-- The rows of a file, one for every ordinal of its shard. -/
def readRows (artifact : ShardArtifact) : Except CloseoutFailure (List Json) :=
  match artifact.payload with
  | none => .error .osError
  | some payload => do
      raiseIf (Sha256.hexDigest payload ≠ artifact.sha) (.mcf "shard digest")
      let rows ← (splitLines [] payload).mapM parseLine
      raiseIf ((rows.length : ℤ) ≠ artifact.shard.stop - artifact.shard.start)
        (.mcf "incomplete shard")
      let ordinals ← rows.mapM fun row => fieldOf row "ordinal"
      raiseIf ((Json.list ordinals).same (.list (artifact.shard.ordinals.map .int)) = false)
        (.mcf "incomplete shard")
      let texts ← rows.mapM textOf
      raiseIf (payload ≠ texts.flatten) (.mcf "noncanonical rows")
      return rows

def invalidResult : CloseoutFailure := .mcf "invalid/unknown/duplicate candidate result"

def hasRequiredFields (row : JsonMembers) : Prop :=
  (∀ key ∈ row.keys, key ∈ requiredFields) ∧ ∀ key ∈ requiredFields, key ∈ row.keys

instance (row : JsonMembers) : Decidable (hasRequiredFields row) :=
  inferInstanceAs (Decidable (_ ∧ _))

/-- The comparisons of a row with its candidate, its shard and its batch. -/
def checkResult (batch : Batch) (datasetId : String) (shard : Shard) (candidate : Registration)
    (row : JsonMembers) : Except CloseoutFailure Unit := do
  raiseIf (¬ hasRequiredFields row) invalidResult
  raiseIf (∃ v ∈ row.lookup "result_state", v.isHashable = false) .typeError
  raiseIf (∀ state ∈ finalStates, row.lookup "result_state" ≠ some (.str state)) invalidResult
  let sha ← digestOf (.object (row.erase "result_record_sha256"))
  raiseIf (row.lookup "result_record_sha256" ≠ some (.str sha) ∨
    row.lookup "candidate_spec_sha256" ≠ some (.str candidate.candidateSpecSha256) ∨
    row.lookup "batch_id" ≠ some (.str batch.batchId) ∨
    row.lookup "shard_id" ≠ some (.str shard.shardId) ∨
    row.lookup "dataset_id" ≠ some (.str datasetId) ∨
    row.lookup "evidence_partition" ≠ some (.str "DEVELOPMENT") ∨
    agrees row "safety" ledgerSafety = false) invalidResult
  raiseIf (candidate.state = some structurallyInvalid ∧
    row.lookup "result_state" ≠ some (.str structurallyInvalid))
    (.mcf "structural failure was dropped")

/-- Add a row to those found so far, by candidate. -/
def addResult (batch : Batch) (registered : List Registration) (datasetId : String) (shard : Shard)
    (found : List (Registration × JsonMembers)) (row : Json) :
    Except CloseoutFailure (List (Registration × JsonMembers)) :=
  match row with
  | .object row => do
      let cid ← fieldOf (.object row) "candidate_id"
      raiseIf (cid.isHashable = false) .typeError
      match registered.find? fun candidate => decide (cid = .str candidate.candidateId) with
      | none => .error invalidResult
      | some candidate => do
          raiseIf (candidate.candidateId ∈ found.map fun e => e.1.candidateId) invalidResult
          checkResult batch datasetId shard candidate row
          return found ++ [(candidate, row)]
  | _ => .error .typeError

structure Progress where
  shardIds : List String
  found : List (Registration × JsonMembers)

def closeShard (batch : Batch) (registered : List Registration) (datasetId : String)
    (progress : Progress) (artifact : ShardArtifact) : Except CloseoutFailure Progress := do
  admitShard batch progress.shardIds artifact
  let rows ← readRows artifact
  let found ← rows.foldlM (addResult batch registered datasetId artifact.shard) progress.found
  return ⟨progress.shardIds ++ [artifact.shard.shardId], found⟩

structure Closeout where
  resultCount : ℕ
  failureCounts : List (Json × ℕ)
  ledgerSha256 : String

/-- The failure reasons of a row, as they are counted. -/
def reasonsOf (row : JsonMembers) : Except CloseoutFailure (List Json) := do
  let reasons ← fieldOf (.object row) "failure_reasons"
  let items ← (tupleOf reasons).mapError .ofFactory
  raiseIf (items.all Json.isHashable = false) .typeError
  return items

def summarize (found : List (Registration × JsonMembers)) : Except CloseoutFailure Closeout := do
  let reasons ← found.mapM fun e => reasonsOf e.2
  let ordered := found.insertionSort fun a b => a.1.candidateId ≤ b.1.candidateId
  let sha ← digestOf (.list (ordered.map fun e => .object e.2))
  return {
    resultCount := found.length
    failureCounts := (Json.distinct reasons.flatten).map fun reason =>
      (reason, reasons.flatten.countP fun other => decide (reason.scalar? = other.scalar?))
    ledgerSha256 := sha }

def isInvalid (r : Registration) : Bool := decide (r.state = some structurallyInvalid)

/-- The batch agrees with itself and with what is registered. -/
def checkBatch (batch : Batch) (registered : List Registration) (artifacts : List ShardArtifact) :
    Except CloseoutFailure Unit := do
  raiseIf (batch.safety.same ledgerSafety = false ∨ batch.evidencePartition ≠ "DEVELOPMENT" ∨
    (registered.length : ℤ) ≠ batch.rawCandidateCount ∨
    artifacts.length ≠ batch.shardLayout.length) (.mcf "batch metadata mismatch")
  let texts ← registered.mapM fun r => textOf r.toDict
  raiseIf (Sha256.hexDigest texts.flatten ≠ batch.candidateLedgerSha256)
    (.mcf "registered ledger mismatch")
  raiseIf (¬ (registered.map Registration.candidateId).Nodup) (.mcf "duplicate registration")
  raiseIf ((registered.countP isInvalid : ℤ) ≠ batch.structuralInvalidCount)
    (.mcf "structural count")
  raiseIf ((registered.length : ℤ) - batch.structuralInvalidCount ≠ batch.structuralValidCount)
    (.mcf "valid count")

/-- A partial/unknown/duplicate ledger is BATCH_INVALID, never canonical. -/
def reconcile (batch : Batch) (registered : List Registration) (artifacts : List ShardArtifact)
    (datasetId : String) : Except CloseoutFailure Closeout := do
  checkBatch batch registered artifacts
  let progress ← artifacts.foldlM (closeShard batch registered datasetId) ⟨[], []⟩
  raiseIf (∃ r ∈ registered, r.candidateId ∉ progress.found.map fun e => e.1.candidateId)
    (.mcf "missing result")
  summarize progress.found

theorem same_rational {n : Json.Number} {q : ℚ} : n.same (.rational q) = true ↔ n = .rational q := by
  cases n <;> simp [Number.same]

theorem same_int {v : Json} {a : ℤ} : v.same (.int a) = true ↔ v.number? = some (.rational a) := by
  cases v with
  | bool b => simp [Json.same, number?, same_rational]
  | int n => simp [Json.same, number?, same_rational]
  | float l =>
    rw [Json.same]
    · simp only [number?, Option.some.injEq]
      exact same_rational
    all_goals simp
  | _ => simp [Json.same, number?]

theorem sameItems_iff {xs ys : List Json} :
    Json.sameItems (JsonItems.ofList xs) (JsonItems.ofList ys) = true ↔
      List.Forall₂ (fun x y => x.same y = true) xs ys := by
  induction xs generalizing ys with
  | nil => cases ys <;> simp [JsonItems.ofList, sameItems]
  | cons x xs ih => cases ys <;> simp [JsonItems.ofList, sameItems, ih]

section Shards
variable {artifact : ShardArtifact} {batch : Batch} {registered : List Registration}
  {datasetId : String} {shard : Shard} {shardIds : List String} {rows : List Json} {row : Json}
  {candidate : Registration} {members : JsonMembers}
  {found found' : List (Registration × JsonMembers)} {progress progress' : Progress}

theorem fieldOf_eq_ok {v : Json} {key : String} {value : Json} :
    fieldOf v key = .ok value ↔ v.get? key = some value := by
  cases v with
  | object ms =>
    rw [fieldOf, get?]
    cases ms.lookup key <;> simp
  | _ => simp [fieldOf, get?]

/-- The rows have the ordinals of the shard, one after the other. -/
structure Numbered (shard : Shard) (rows : List Json) : Prop where
  length : (rows.length : ℤ) = shard.stop - shard.start
  ordinal : ∀ i (h : i < rows.length), ∃ v, rows[i].get? "ordinal" = some v ∧
    v.same (.int (shard.start + i)) = true

theorem numbered_of_readRows (h : readRows artifact = .ok rows) : Numbered artifact.shard rows := by
  unfold readRows at h
  split at h
  · cases h
  · rw [raiseIf_bind_eq_ok] at h
    obtain ⟨-, h⟩ := h
    obtain ⟨rows', -, h⟩ := bind_eq_ok.mp h
    rw [raiseIf_bind_eq_ok, not_not] at h
    obtain ⟨hlength, h⟩ := h
    obtain ⟨ordinals, hordinals, h⟩ := bind_eq_ok.mp h
    rw [raiseIf_bind_eq_ok, Bool.not_eq_false] at h
    obtain ⟨hsame, h⟩ := h
    obtain ⟨texts, -, h⟩ := bind_eq_ok.mp h
    rw [raiseIf_bind_eq_ok] at h
    obtain ⟨-, h⟩ := h
    cases h
    refine ⟨hlength, fun i hi => ?_⟩
    obtain ⟨hlen, hget⟩ := forall₂_iff_get.mp (mapM_eq_ok.mp hordinals)
    obtain ⟨hlen', hget'⟩ := forall₂_iff_get.mp (sameItems_iff.mp hsame)
    have hi' : i < ordinals.length := hlen ▸ hi
    refine ⟨ordinals[i], fieldOf_eq_ok.mp (hget i hi hi'), ?_⟩
    have hi'' : i < (artifact.shard.ordinals.map Json.int).length := hlen' ▸ hi'
    have hvalue := hget' i hi' hi''
    simpa [Shard.ordinals] using hvalue

/-- A row as the comparisons take it for the row of a candidate. -/
structure Accepted (candidate : Registration) (row : JsonMembers) : Prop where
  id : row.lookup "candidate_id" = some (.str candidate.candidateId)
  spec : row.lookup "candidate_spec_sha256" = some (.str candidate.candidateSpecSha256)
  structural : candidate.state = some structurallyInvalid →
    row.lookup "result_state" = some (.str structurallyInvalid)

theorem addResult_eq_ok (h : addResult batch registered datasetId shard found row = .ok found') :
    ∃ candidate ∈ registered, ∃ members, row = .object members ∧ Accepted candidate members ∧
      candidate.candidateId ∉ found.map (fun e => e.1.candidateId) ∧
      found' = found ++ [(candidate, members)] := by
  unfold addResult at h
  split at h
  · rename_i members
    obtain ⟨cid, hcid, h⟩ := bind_eq_ok.mp h
    rw [raiseIf_bind_eq_ok] at h
    obtain ⟨-, h⟩ := h
    split at h
    · cases h
    · rename_i candidate hfind
      rw [raiseIf_bind_eq_ok] at h
      obtain ⟨hnew, h⟩ := h
      obtain ⟨hcheck, h⟩ := unit_bind_eq_ok.mp h
      cases h
      have hid : cid = .str candidate.candidateId := by simpa using find?_some hfind
      unfold checkResult at hcheck
      rw [raiseIf_bind_eq_ok, raiseIf_bind_eq_ok, raiseIf_bind_eq_ok] at hcheck
      obtain ⟨-, -, -, hcheck⟩ := hcheck
      obtain ⟨sha, -, hcheck⟩ := bind_eq_ok.mp hcheck
      rw [raiseIf_bind_eq_ok, raiseIf_eq_ok] at hcheck
      obtain ⟨hfields, hstructural⟩ := hcheck
      push Not at hfields hstructural
      exact ⟨candidate, mem_of_find?_eq_some hfind, members, rfl,
        ⟨hid ▸ fieldOf_eq_ok.mp hcid, hfields.2.1, hstructural⟩, hnew, rfl⟩
  · cases h

/-- Rows that are found one after the other. -/
theorem addResults_eq_ok
    (h : rows.foldlM (addResult batch registered datasetId shard) found = .ok found')
    (hnodup : (found.map fun e => e.1.candidateId).Nodup) :
    (found'.map fun e => e.1.candidateId).Nodup ∧ ∃ es : List (Registration × JsonMembers),
      found' = found ++ es ∧ es.map (fun e => Json.object e.2) = rows ∧
        ∀ e ∈ es, e.1 ∈ registered ∧ Accepted e.1 e.2 := by
  induction rows generalizing found with
  | nil =>
    cases h
    exact ⟨hnodup, [], by simp⟩
  | cons row rows ih =>
    rw [foldlM_cons] at h
    obtain ⟨next, hrow, hrest⟩ := bind_eq_ok.mp h
    obtain ⟨candidate, hmem, members, rfl, haccepted, hnew, rfl⟩ := addResult_eq_ok hrow
    have hnext : ((found ++ [(candidate, members)]).map fun e => e.1.candidateId).Nodup := by
      rw [map_append, map_singleton]
      exact nodup_append.mpr ⟨hnodup, nodup_singleton _, fun a ha b hb hab => hnew <| by
        rw [mem_singleton] at hb
        exact hb ▸ hab ▸ ha⟩
    obtain ⟨hfound, es, rfl, hes, hall⟩ := ih hrest hnext
    refine ⟨hfound, (candidate, members) :: es, by simp, by simp [hes], ?_⟩
    exact forall_mem_cons.mpr ⟨⟨hmem, haccepted⟩, hall⟩

def rowsOf (artifact : ShardArtifact) : List Json :=
  match readRows artifact with
  | .ok rows => rows
  | .error _ => []

/-- The result rows of a batch, each with the shard it lies in. -/
def resultRows (artifacts : List ShardArtifact) : List (Shard × Json) :=
  artifacts.flatMap fun a => (rowsOf a).map fun row => (a.shard, row)

/-- A registered candidate with a result row. -/
structure Paired where
  candidate : Registration
  shard : Shard
  row : JsonMembers

def Paired.result (p : Paired) : Shard × Json := (p.shard, .object p.row)

/-- What the closeout has found in some shards. -/
structure Found (batch : Batch) (registered : List Registration) (artifacts : List ShardArtifact)
    (pairs : List Paired) : Prop where
  listed : ∀ a ∈ artifacts, a.shard ∈ batch.shardLayout ∧ Numbered a.shard (rowsOf a)
  results : pairs.map Paired.result = resultRows artifacts
  accepted : ∀ p ∈ pairs, p.candidate ∈ registered ∧ Accepted p.candidate p.row

theorem closeShard_eq_ok
    (h : closeShard batch registered datasetId progress artifact = .ok progress') :
    artifact.shard ∈ batch.shardLayout ∧ artifact.shard.shardId ∉ progress.shardIds ∧
      readRows artifact = .ok (rowsOf artifact) ∧
      progress'.shardIds = progress.shardIds ++ [artifact.shard.shardId] ∧
      (rowsOf artifact).foldlM (addResult batch registered datasetId artifact.shard)
        progress.found = .ok progress'.found := by
  obtain ⟨hcheck, h⟩ := unit_bind_eq_ok.mp h
  obtain ⟨-, hcheck⟩ := unit_bind_eq_ok.mp hcheck
  rw [raiseIf_eq_ok] at hcheck
  push Not at hcheck
  obtain ⟨rows, hrows, h⟩ := bind_eq_ok.mp h
  obtain ⟨found, hfound, h⟩ := bind_eq_ok.mp h
  cases h
  have hrowsOf : rowsOf artifact = rows := by rw [rowsOf, hrows]
  rw [hrowsOf]
  exact ⟨hcheck.1, hcheck.2.1, hrows, rfl, hfound⟩

theorem closeShards_eq_ok {artifacts : List ShardArtifact}
    (h : artifacts.foldlM (closeShard batch registered datasetId) progress = .ok progress')
    (hids : progress.shardIds.Nodup)
    (hnodup : (progress.found.map fun e => e.1.candidateId).Nodup) :
    progress'.shardIds = progress.shardIds ++ artifacts.map (fun a => a.shard.shardId) ∧
      progress'.shardIds.Nodup ∧ (progress'.found.map fun e => e.1.candidateId).Nodup ∧
      ∃ pairs, Found batch registered artifacts pairs ∧
        progress'.found = progress.found ++ pairs.map fun p => (p.candidate, p.row) := by
  induction artifacts generalizing progress with
  | nil =>
    cases h
    exact ⟨by simp, hids, hnodup, [], ⟨by simp, rfl, by simp⟩, by simp⟩
  | cons artifact artifacts ih =>
    rw [foldlM_cons] at h
    obtain ⟨next, hshard, hrest⟩ := bind_eq_ok.mp h
    obtain ⟨hlisted, hnew, hread, hnext, hrows⟩ := closeShard_eq_ok hshard
    obtain ⟨hfound, es, hes, hresults, haccepted⟩ := addResults_eq_ok hrows hnodup
    have hids' : next.shardIds.Nodup := by
      rw [hnext]
      exact nodup_append.mpr ⟨hids, nodup_singleton _, fun a ha b hb hab => hnew <| by
        rw [mem_singleton] at hb
        exact hb ▸ hab ▸ ha⟩
    obtain ⟨hshards, hnodup', hfound', pairs, hpairs, heq⟩ := ih hrest hids' hfound
    refine ⟨by rw [hshards, hnext]; simp, hnodup', hfound',
      es.map (fun e => ⟨e.1, artifact.shard, e.2⟩) ++ pairs, ⟨?_, ?_, ?_⟩, ?_⟩
    · exact forall_mem_cons.mpr ⟨⟨hlisted, numbered_of_readRows hread⟩, hpairs.listed⟩
    · rw [map_append, hpairs.results, resultRows, resultRows, flatMap_cons, ← hresults, map_map,
        map_map]
      rfl
    · refine forall_mem_append.mpr ⟨?_, hpairs.accepted⟩
      intro p hp
      obtain ⟨e, he, rfl⟩ := mem_map.mp hp
      exact haccepted e he
    · rw [heq, hes, append_assoc, map_append, map_map]
      congr 2
      exact (map_id _).symm

end Shards

/-- The result row of a candidate, in the one shard that covers the candidate's ordinal. -/
structure BoundTo (batch : Batch) (p : Paired) : Prop extends Accepted p.candidate p.row where
  ordinal : ∃ v, p.row.lookup "ordinal" = some v ∧ v.same (.int p.candidate.ordinal) = true
  covers : p.shard ∈ batch.shardLayout ∧ p.shard.Covers p.candidate.ordinal
  only : ∀ s ∈ batch.shardLayout, s.Covers p.candidate.ordinal → s = p.shard

/-- Every result row is bound to a registered candidate of its own, and every candidate has one. -/
def Binds (batch : Batch) (registered : List Registration) (artifacts : List ShardArtifact) : Prop :=
  ∃ pairs : List Paired, (pairs.map Paired.candidate).Perm registered ∧
    pairs.map Paired.result = resultRows artifacts ∧ ∀ p ∈ pairs, BoundTo batch p

/-- The lines of every file name the candidates that are registered with the ordinals of its shard,
one after the other. -/
def InRegisteredOrder (registered : List Registration) (artifacts : List ShardArtifact) : Prop :=
  ∀ a ∈ artifacts, ∀ (i : ℕ) (row : Json), (rowsOf a)[i]? = some row → ∀ candidate ∈ registered,
    row.get? "candidate_id" = some (.str candidate.candidateId) →
      candidate.ordinal = a.shard.start + i

/-- No ordinal belongs to two shards. -/
def DisjointShards (shards : List Shard) : Prop :=
  shards.Pairwise fun s t => ∀ n, s.Covers n → ¬ t.Covers n

/-- What a complete batch has been checked for. -/
structure Complete (batch : Batch) (registered : List Registration) (artifacts : List ShardArtifact)
    (pairs : List Paired) : Prop extends Found batch registered artifacts pairs where
  ids : (registered.map Registration.candidateId).Nodup
  candidates : (pairs.map Paired.candidate).Perm registered
  shards : (artifacts.map ShardArtifact.shard).Perm batch.shardLayout
  distinct : (artifacts.map ShardArtifact.shard).Nodup

section Complete
variable {batch : Batch} {registered : List Registration} {artifacts : List ShardArtifact}
  {datasetId : String} {closeout : Closeout} {pairs : List Paired} {a : ShardArtifact} {i : ℕ}
  {row : Json}

theorem complete_of_reconcile (h : reconcile batch registered artifacts datasetId = .ok closeout) :
    ∃ pairs, Complete batch registered artifacts pairs := by
  obtain ⟨hbatch, h⟩ := unit_bind_eq_ok.mp h
  obtain ⟨progress, hprogress, h⟩ := bind_eq_ok.mp h
  rw [raiseIf_bind_eq_ok] at h
  push Not at h
  obtain ⟨hmissing, -⟩ := h
  unfold checkBatch at hbatch
  rw [raiseIf_bind_eq_ok] at hbatch
  obtain ⟨hmetadata, hbatch⟩ := hbatch
  push Not at hmetadata
  obtain ⟨texts, -, hbatch⟩ := bind_eq_ok.mp hbatch
  rw [raiseIf_bind_eq_ok, raiseIf_bind_eq_ok] at hbatch
  obtain ⟨-, hids, -⟩ := hbatch
  rw [not_not] at hids
  obtain ⟨hshards, hnodup, hfound, pairs, hpairs, heq⟩ :=
    closeShards_eq_ok hprogress nodup_nil nodup_nil
  rw [nil_append] at hshards heq
  have hdistinct : (artifacts.map ShardArtifact.shard).Nodup := by
    rw [hshards] at hnodup
    refine Nodup.of_map Shard.shardId ?_
    rw [map_map]
    exact hnodup
  rw [heq, map_map] at hfound
  have hnames : ((pairs.map Paired.candidate).map Registration.candidateId).Nodup := by
    rw [map_map]
    exact hfound
  refine ⟨pairs, ⟨hpairs, hids, ?_, ?_, hdistinct⟩⟩
  · rw [perm_ext_iff_of_nodup hnames.of_map hids.of_map]
    intro candidate
    constructor
    · intro hmem
      obtain ⟨p, hp, rfl⟩ := mem_map.mp hmem
      exact (hpairs.accepted p hp).1
    · intro hmem
      have hin := hmissing candidate hmem
      rw [heq, map_map] at hin
      obtain ⟨p, hp, hid⟩ := mem_map.mp hin
      have hcandidate := inj_on_of_nodup_map hids (hpairs.accepted p hp).1 hmem hid
      exact mem_map.mpr ⟨p, hp, hcandidate⟩
  · refine (subperm_of_subset hdistinct fun s hs => ?_).perm_of_length_le ?_
    · obtain ⟨a, ha, rfl⟩ := mem_map.mp hs
      exact (hpairs.listed a ha).1
    · rw [length_map]
      exact hmetadata.2.2.2.ge

theorem mem_resultRows (ha : a ∈ artifacts) (hrow : (rowsOf a)[i]? = some row) :
    (a.shard, row) ∈ resultRows artifacts := by
  refine mem_flatMap.mpr ⟨a, ha, mem_map.mpr ⟨row, ?_, rfl⟩⟩
  exact mem_of_getElem? hrow

theorem ordinal_unique {v : Json} {m n : ℤ} (hm : v.same (.int m) = true)
    (hn : v.same (.int n) = true) : m = n := by
  have heq := (same_int.mp hm).symm.trans (same_int.mp hn)
  simpa using heq

theorem Complete.inRegisteredOrder (h : Complete batch registered artifacts pairs)
    (hbinds : Binds batch registered artifacts) : InRegisteredOrder registered artifacts := by
  intro a ha i row hrow candidate hcandidate hid
  obtain ⟨pairs', hperm, hresults, hbound⟩ := hbinds
  have hmem := mem_resultRows ha hrow
  rw [← hresults] at hmem
  obtain ⟨p, hp, hresult⟩ := mem_map.mp hmem
  obtain ⟨hshard, rfl⟩ := Prod.mk.inj hresult
  have hp' : p.candidate ∈ registered := hperm.mem_iff.mp (mem_map_of_mem hp)
  have hname : str p.candidate.candidateId = .str candidate.candidateId :=
    Option.some.inj ((hbound p hp).id.symm.trans hid)
  have heq : p.candidate = candidate :=
    inj_on_of_nodup_map h.ids hp' hcandidate (str.inj hname)
  obtain ⟨v, hv, hordinal⟩ := (hbound p hp).ordinal
  obtain ⟨hi, hget⟩ := List.getElem?_eq_some_iff.mp hrow
  obtain ⟨w, hw, hnumber⟩ := (h.listed a ha).2.ordinal i hi
  rw [hget] at hw
  cases hv.symm.trans hw
  rw [heq] at hordinal
  exact ordinal_unique hordinal hnumber

theorem exists_row (hnumbered : Numbered a.shard (rowsOf a)) {n : ℤ} (hn : a.shard.Covers n) :
    ∃ (i : ℕ) (row : Json), (rowsOf a)[i]? = some row ∧ n = a.shard.start + i := by
  obtain ⟨hlow, hhigh⟩ := hn
  have hlength := hnumbered.length
  have hi : (n - a.shard.start).toNat < (rowsOf a).length := by omega
  exact ⟨_, _, getElem?_eq_getElem hi, by omega⟩

theorem Complete.disjointShards (h : Complete batch registered artifacts pairs)
    (hbinds : Binds batch registered artifacts) : DisjointShards batch.shardLayout := by
  have hdistinct : batch.shardLayout.Pairwise (· ≠ ·) := h.shards.nodup_iff.mp h.distinct
  refine hdistinct.imp_of_mem fun {s t} hs ht hne n hn hn' => ?_
  obtain ⟨a, ha, rfl⟩ := mem_map.mp (h.shards.mem_iff.mpr hs)
  obtain ⟨i, row, hrow, hni⟩ := exists_row (h.listed a ha).2 hn
  have hmem := mem_resultRows ha hrow
  have horder := h.inRegisteredOrder hbinds a ha i row hrow
  obtain ⟨pairs', hperm, hresults, hbound⟩ := hbinds
  rw [← hresults] at hmem
  obtain ⟨p, hp, hresult⟩ := mem_map.mp hmem
  obtain ⟨hshard, rfl⟩ := Prod.mk.inj hresult
  have hordinal := horder p.candidate (hperm.mem_iff.mp (mem_map_of_mem hp)) (hbound p hp).id
  rw [← hni] at hordinal
  have honly := (hbound p hp).only t ht (hordinal ▸ hn')
  exact hne (hshard.symm.trans honly.symm)

theorem Complete.binds (h : Complete batch registered artifacts pairs)
    (horder : InRegisteredOrder registered artifacts)
    (hdisjoint : DisjointShards batch.shardLayout) : Binds batch registered artifacts := by
  refine ⟨pairs, h.candidates, h.results, fun p hp => ?_⟩
  obtain ⟨hmem, haccepted⟩ := h.accepted p hp
  have hresult : p.result ∈ resultRows artifacts := h.results ▸ mem_map_of_mem hp
  obtain ⟨a, ha, hrow⟩ := mem_flatMap.mp hresult
  obtain ⟨row, hrow, heq⟩ := mem_map.mp hrow
  obtain ⟨hshard, rfl⟩ := Prod.mk.inj heq
  obtain ⟨hlisted, hnumbered⟩ := h.listed a ha
  obtain ⟨i, hi, hget⟩ := List.mem_iff_getElem.mp hrow
  have hordinal := horder a ha i _ (List.getElem?_eq_some_iff.mpr ⟨hi, hget⟩) p.candidate hmem
    haccepted.id
  have hlength := hnumbered.length
  have hcovers : p.shard.Covers p.candidate.ordinal := by
    rw [← hshard]
    exact ⟨by omega, by omega⟩
  refine ⟨haccepted, ?_, ⟨hshard ▸ hlisted, hcovers⟩, fun s hs hs' => ?_⟩
  · obtain ⟨v, hv, hnumber⟩ := hnumbered.ordinal i hi
    rw [hget] at hv
    exact ⟨v, hv, hordinal ▸ hnumber⟩
  · by_contra hne
    have hsymm : Std.Symm fun s t : Shard => ∀ n, s.Covers n → ¬ t.Covers n :=
      ⟨fun s t hst n ht hs => hst n hs ht⟩
    exact hdisjoint.forall hs (hshard ▸ hlisted) hne _ hs' hcovers

/-- A complete batch binds its rows exactly when its files name the candidates in the order of
their registered ordinals and its shards have no ordinal in common. -/
theorem complete_batch_binds_iff
    (h : reconcile batch registered artifacts datasetId = .ok closeout) :
    Binds batch registered artifacts ↔
      InRegisteredOrder registered artifacts ∧ DisjointShards batch.shardLayout := by
  obtain ⟨pairs, hcomplete⟩ := complete_of_reconcile h
  constructor
  · intro hbinds
    exact ⟨hcomplete.inRegisteredOrder hbinds, hcomplete.disjointShards hbinds⟩
  · rintro ⟨horder, hdisjoint⟩
    exact hcomplete.binds horder hdisjoint

end Complete

/-- A dictionary in memory that has a text. -/
structure Writable (members : JsonMembers) : Prop where
  held : members.Held
  finite : (Json.object members).hasNonFinite = false
  short : (Json.object members).hasLongInteger = false

def payloadOf (rows : List JsonMembers) : List Char :=
  (rows.map fun members => (Json.object members).canonical).flatten

section Written
variable {rows : List JsonMembers} {members : JsonMembers} {artifact : ShardArtifact}

theorem Writable.normal (h : Writable members) :
    (Json.object members).normal = .object members :=
  Json.Held.normal (v := .object members) h.held

theorem Writable.textOf (h : Writable members) :
    textOf (.object members) = .ok (Json.object members).canonical := by
  have htext := canonicalText_eq_ok.mpr ⟨h.finite, h.short, rfl⟩
  rw [Ledger.textOf, htext, h.normal]
  rfl

theorem Writable.digestOf (h : Writable members) :
    digestOf (.object members) = .ok (Json.object members).digest := by
  have hsha := digestText_eq_ok.mpr ⟨h.finite, h.short, rfl⟩
  rw [Ledger.digestOf, hsha, h.normal]
  rfl

theorem Writable.insert_str (h : Writable members) (key text : String) :
    Writable (members.insert key (.str text)) :=
  ⟨h.held.insert_str _, Json.membersHaveNonFinite_insert rfl _ h.finite,
    Json.membersHaveLongInteger_insert rfl _ h.short⟩

theorem splitLines_line {body : List Char} (h : Json.Printable body) (line rest : List Char) :
    splitLines line (body ++ '\n' :: rest) = (line ++ body) :: splitLines [] rest := by
  induction body generalizing line with
  | nil =>
    rw [nil_append, splitLines, if_pos (.inl rfl), append_nil]
    rintro cs heq -
    exact absurd heq (by decide)
  | cons c cs ih =>
    have hc : 32 ≤ c.toNat := h c mem_cons_self
    have hfeed : c ≠ '\n' := fun heq => absurd (heq ▸ hc) (by decide)
    have hreturn : c ≠ '\r' := fun heq => absurd (heq ▸ hc) (by decide)
    rw [cons_append, splitLines, if_neg (not_or.mpr ⟨hfeed, hreturn⟩),
      ih fun d hd => h d (mem_cons_of_mem _ hd), append_assoc]
    · rfl
    · rintro ds heq -
      exact hreturn heq

theorem splitLines_payloadOf (h : ∀ m ∈ rows, Writable m) :
    splitLines [] (payloadOf rows) = rows.map fun m => (Json.object m).plainText := by
  unfold payloadOf
  induction rows with
  | nil => rfl
  | cons m rows ih =>
    rw [forall_mem_cons] at h
    have hprintable := printable_plainText (.object m)
    rw [h.1.normal] at hprintable
    rw [map_cons, flatten_cons, Json.canonical, append_assoc, singleton_append,
      splitLines_line hprintable, ih h.2, nil_append, map_cons]

/-- The rows of a written shard are read back. -/
theorem readRows_of_writable (h : ∀ m ∈ rows, Writable m)
    (hpayload : artifact.payload = some (payloadOf rows))
    (hsha : artifact.sha = Sha256.hexDigest (payloadOf rows))
    (hlength : (rows.length : ℤ) = artifact.shard.stop - artifact.shard.start)
    (hordinal : ∀ i (hi : i < rows.length),
      rows[i].lookup "ordinal" = some (.int (artifact.shard.start + i))) :
    readRows artifact = .ok (rows.map .object) := by
  have hparse : (rows.map fun m => (Json.object m).plainText).mapM parseLine =
      .ok (rows.map .object) := by
    rw [mapM_eq_ok, forall₂_map_left_iff, forall₂_map_right_iff, forall₂_same]
    intro m hm
    rw [parseLine, loads_plainText (h m hm).held (h m hm).finite (h m hm).short]
  have hordinals : (rows.map Json.object).mapM (fun row => fieldOf row "ordinal") =
      .ok (artifact.shard.ordinals.map .int) := by
    rw [mapM_eq_ok, forall₂_iff_get]
    refine ⟨by simp [Shard.ordinals]; omega, fun i hi hi' => ?_⟩
    rw [length_map] at hi
    rw [fieldOf_eq_ok]
    simpa [get?, Shard.ordinals] using hordinal i hi
  have hsame : (list (artifact.shard.ordinals.map .int)).same
      (.list (artifact.shard.ordinals.map .int)) = true := by
    refine same_self (hasNonFinite_list fun v hv => ?_)
    obtain ⟨n, -, rfl⟩ := mem_map.mp hv
    rfl
  have htexts : (rows.map Json.object).mapM textOf =
      .ok (rows.map fun m => (Json.object m).canonical) := by
    rw [mapM_eq_ok, forall₂_map_left_iff, forall₂_map_right_iff, forall₂_same]
    exact fun m hm => (h m hm).textOf
  rw [readRows, hpayload]
  dsimp only
  rw [raiseIf_neg (not_not_intro hsha.symm), ok_bind, splitLines_payloadOf h, hparse, ok_bind,
    length_map, raiseIf_neg (not_not_intro hlength), ok_bind, hordinals, ok_bind, hsame,
    raiseIf_neg (by decide), ok_bind, htexts, ok_bind]
  exact raiseIf_bind_eq_ok.mpr ⟨not_not_intro rfl, rfl⟩

end Written

theorem mem_keys_iff {key : String} {ms : JsonMembers} :
    key ∈ ms.keys ↔ ms.lookup key ≠ none := by
  induction ms using JsonMembers.keys.induct with
  | case1 => simp [JsonMembers.keys, JsonMembers.lookup]
  | case2 k v ms ih =>
    rw [JsonMembers.keys, JsonMembers.lookup, mem_cons, ih]
    by_cases hk : key = k
    · simp [hk]
    · simp [hk]

section Made
variable {made candidate : Registration} {batch : Batch} {registered : List Registration}
  {shard : Shard} {datasetId state key : String} {failureReasons : List String}
  {metrics row : JsonMembers} {v : Json} {found : List (Registration × JsonMembers)}

theorem lookup_resultBody :
    (resultBody made batch shard datasetId state failureReasons metrics).lookup key =
      (resultEntries made batch shard datasetId state failureReasons metrics).lookup key := by
  have hkeys : (resultEntries made batch shard datasetId state failureReasons metrics).map
      Prod.fst = requiredFields.dropLast := rfl
  have hnodup : requiredFields.dropLast.Nodup := by decide
  rw [resultBody, JsonMembers.lookup_foldl_insert (hkeys ▸ hnodup), JsonMembers.lookup,
    Option.or_none]

theorem lookup_resultBody_eq_none :
    (resultBody made batch shard datasetId state failureReasons metrics).lookup key = none ↔
      key ∉ requiredFields.dropLast := by
  rw [lookup_resultBody, lookup_eq_none_iff]
  change _ ↔ key ∉ (resultEntries made batch shard datasetId state failureReasons metrics).map
    Prod.fst
  rw [mem_map]
  push Not
  refine forall₂_congr fun e _ => ?_
  rw [bne_iff_ne]
  exact ne_comm

theorem hasRequiredFields_resultBody : hasRequiredFields
    ((resultBody made batch shard datasetId state failureReasons metrics).insert
      "result_record_sha256" v) := by
  have hiff : ∀ key, key ∈ ((resultBody made batch shard datasetId state failureReasons
      metrics).insert "result_record_sha256" v).keys ↔
        key ∈ requiredFields.dropLast ++ ["result_record_sha256"] := by
    intro key
    rw [mem_keys_iff, JsonMembers.lookup_insert, mem_append, mem_singleton]
    by_cases hkey : key = "result_record_sha256"
    · simp [hkey]
    · simp [hkey, lookup_resultBody_eq_none]
  exact ⟨fun key hkey => (hiff key).mp hkey, fun key hkey => (hiff key).mpr hkey⟩

theorem writable_resultBody (hfinite : (Json.object (resultBody made batch shard datasetId state
    failureReasons .nil)).hasNonFinite = false) (hshort : (Json.object (resultBody made batch shard
      datasetId state failureReasons .nil)).hasLongInteger = false) :
    Writable (resultBody made batch shard datasetId state failureReasons .nil) := by
  have hsafety : ledgerSafety.Held := held_dict (by simp [Json.Held])
  have hreasons : (list ((failureReasons.insertionSort (· ≤ ·)).map .str)).Held := by
    refine held_list fun v hv => ?_
    obtain ⟨reason, -, rfl⟩ := mem_map.mp hv
    trivial
  have hentries : ∀ e ∈ resultEntries made batch shard datasetId state failureReasons .nil,
      e.2.Held := by
    simp [resultEntries, hsafety, hreasons, JsonMembers.lookup, Json.Held, JsonMembers.Held]
  refine ⟨?_, hfinite, hshort⟩
  unfold resultBody
  generalize resultEntries made batch shard datasetId state failureReasons .nil = entries at *
  exact JsonMembers.Held.foldl_insert hentries trivial

theorem makeResult_eq_ok :
    makeResult made batch shard datasetId state failureReasons metrics = .ok row ↔
      (state ∈ finalStates ∧ datasetId ≠ "" ∧ batch.evidencePartition = "DEVELOPMENT") ∧
      (metrics ≠ .nil → agrees metrics "dataset_id" (.str datasetId) = true) ∧
      ∃ sha, digestOf (.object (resultBody made batch shard datasetId state failureReasons
          metrics)) = .ok sha ∧
        (resultBody made batch shard datasetId state failureReasons metrics).insert
          "result_record_sha256" (.str sha) = row := by
  unfold makeResult
  rw [raiseIf_bind_eq_ok, raiseIf_bind_eq_ok, bind_eq_ok]
  push Not
  simp only [pure, Except.pure, Except.ok.injEq, Bool.not_eq_false]

/-- A written row passes the comparisons of every candidate with its specification, unless a
structural failure was dropped. The ordinal plays no part in them. -/
theorem checkResult_of_makeResult
    (h : makeResult made batch shard datasetId state failureReasons metrics = .ok row)
    (hspec : made.candidateSpecSha256 = candidate.candidateSpecSha256)
    (hstate : candidate.state = some structurallyInvalid → state = structurallyInvalid) :
    checkResult batch datasetId shard candidate row = .ok () := by
  obtain ⟨⟨hfinal, -, -⟩, -, sha, hsha, rfl⟩ := makeResult_eq_ok.mp h
  generalize hbody : resultBody made batch shard datasetId state failureReasons metrics = body at *
  have hlookup : ∀ {key : String}, key ≠ "result_record_sha256" →
      (body.insert "result_record_sha256" (.str sha)).lookup key =
        (resultEntries made batch shard datasetId state failureReasons metrics).lookup key := by
    intro key hkey
    rw [JsonMembers.lookup_insert, if_neg hkey, ← hbody, lookup_resultBody]
  have hresult : (body.insert "result_record_sha256" (.str sha)).lookup "result_state" =
      some (.str state) := hlookup (by decide)
  have herase : (body.insert "result_record_sha256" (.str sha)).erase "result_record_sha256" =
      body := by
    apply JsonMembers.erase_insert
    rw [← hbody, lookup_resultBody_eq_none]
    decide
  have hsafety : agrees (body.insert "result_record_sha256" (.str sha)) "safety" ledgerSafety =
      true := by
    have hvalue : (body.insert "result_record_sha256" (.str sha)).lookup "safety" =
        some ledgerSafety := hlookup (by decide)
    rw [agrees, hvalue]
    decide +kernel
  unfold checkResult
  rw [raiseIf_neg (not_not_intro (hbody ▸ hasRequiredFields_resultBody)), ok_bind, hresult,
    raiseIf_neg (by simp [isHashable, scalar?]), ok_bind,
    raiseIf_neg (fun hall => hall state hfinal rfl), ok_bind, herase, hsha, ok_bind, hsafety]
  refine raiseIf_bind_eq_ok.mpr ⟨?_, raiseIf_eq_ok.mpr ?_⟩
  · rw [JsonMembers.lookup_insert, if_pos rfl, ← hspec, hlookup (by decide), hlookup (by decide),
      hlookup (by decide), hlookup (by decide), hlookup (by decide)]
    simp [resultEntries, lookup_cons]
  · rintro ⟨hinvalid, hne⟩
    exact hne (by rw [hstate hinvalid])

/-- A written row is found for the candidate that it names. -/
theorem addResult_of_makeResult (hids : (registered.map Registration.candidateId).Nodup)
    (hcandidate : candidate ∈ registered)
    (h : makeResult made batch shard datasetId state failureReasons metrics = .ok row)
    (hid : made.candidateId = candidate.candidateId)
    (hspec : made.candidateSpecSha256 = candidate.candidateSpecSha256)
    (hstate : candidate.state = some structurallyInvalid → state = structurallyInvalid)
    (hnew : candidate.candidateId ∉ found.map fun e => e.1.candidateId) :
    addResult batch registered datasetId shard found (.object row) =
      .ok (found ++ [(candidate, row)]) := by
  have hcheck := checkResult_of_makeResult h hspec hstate
  obtain ⟨-, -, sha, -, rfl⟩ := makeResult_eq_ok.mp h
  have hname : fieldOf (.object ((resultBody made batch shard datasetId state failureReasons
      metrics).insert "result_record_sha256" (.str sha))) "candidate_id" =
        .ok (.str candidate.candidateId) := by
    rw [fieldOf_eq_ok, get?, JsonMembers.lookup_insert, if_neg (by decide), lookup_resultBody,
      ← hid]
    rfl
  have hfind : (registered.find? fun c => decide
      (str candidate.candidateId = .str c.candidateId)) = some candidate := by
    cases hfind : registered.find? fun c => decide
        (str candidate.candidateId = .str c.candidateId) with
    | none =>
      have hnone := find?_eq_none.mp hfind candidate hcandidate
      simp at hnone
    | some other =>
      have hother : candidate.candidateId = other.candidateId := by
        simpa using find?_some hfind
      exact congrArg some (inj_on_of_nodup_map hids (mem_of_find?_eq_some hfind)
        hcandidate hother.symm)
  unfold addResult
  dsimp only
  rw [hname, ok_bind, raiseIf_neg (by simp [isHashable, scalar?]), ok_bind, hfind]
  dsimp only
  rw [raiseIf_neg hnew, ok_bind, hcheck]
  rfl

end Made

def sampleRegistration (ordinal : ℤ) (candidateId candidateSpecSha256 : String) : Registration where
  ordinal := ordinal
  candidateId := candidateId
  candidateSpecSha256 := candidateSpecSha256
  familyManifestSha256 := "fa"
  parameterVector := .nil
  batchId := "CAL-001"
  state := none
  failureReasons := none

def sampleRegistered : List Registration :=
  [sampleRegistration 0 "MCF-2025-01-000000" "5e0", sampleRegistration 1 "MCF-2025-01-000001" "5e1"]

def sampleShard : Shard := ⟨"5a", 0, 2⟩

def sampleBatch : Batch where
  batchId := "CAL-001"
  evidencePartition := "DEVELOPMENT"
  rawCandidateCount := 2
  structuralValidCount := 2
  structuralInvalidCount := 0
  shardLayout := [sampleShard]
  candidateLedgerSha256 :=
    Sha256.hexDigest (sampleRegistered.map fun r => r.toDict.normal.canonical).flatten
  safety := ledgerSafety

/-- The row that is written for a candidate under an ordinal. -/
def sampleBody (candidate : Registration) (ordinal : ℤ) : JsonMembers :=
  resultBody { candidate with ordinal } sampleBatch sampleShard "SYNTHETIC-001" "DEVELOPMENT_FAIL"
    ["NO_EDGE"] .nil

def sampleRow (candidate : Registration) (ordinal : ℤ) : JsonMembers :=
  (sampleBody candidate ordinal).insert "result_record_sha256"
    (.str (Json.object (sampleBody candidate ordinal)).digest)

/-- The shard with the rows of two candidates, the first under the ordinal 0. -/
def sampleRows (first second : Registration) : List JsonMembers :=
  [sampleRow first 0, sampleRow second 1]

def sampleArtifact (first second : Registration) : ShardArtifact :=
  let payload := payloadOf (sampleRows first second)
  { shard := sampleShard
    guard := .ok ()
    isSymlink := false
    name := sampleShard.shardId ++ "-" ++ Sha256.hexDigest payload ++ ".jsonl"
    payload := some payload
    sha := Sha256.hexDigest payload }

section Sample
variable {candidate first second : Registration} {ordinal : ℤ}
  {found : List (Registration × JsonMembers)}

theorem writable_sampleBody (hcandidate : candidate ∈ sampleRegistered)
    (hordinal : ordinal ∈ ([0, 1] : List ℤ)) : Writable (sampleBody candidate ordinal) := by
  have hchecked : ∀ c ∈ sampleRegistered, ∀ n ∈ ([0, 1] : List ℤ),
      (Json.object (sampleBody c n)).hasNonFinite = false ∧
        (Json.object (sampleBody c n)).hasLongInteger = false := by
    decide +kernel
  obtain ⟨hfinite, hshort⟩ := hchecked candidate hcandidate ordinal hordinal
  exact writable_resultBody hfinite hshort

theorem writable_sampleRow (hcandidate : candidate ∈ sampleRegistered)
    (hordinal : ordinal ∈ ([0, 1] : List ℤ)) : Writable (sampleRow candidate ordinal) :=
  (writable_sampleBody hcandidate hordinal).insert_str _ _

theorem makeResult_sampleRow (hcandidate : candidate ∈ sampleRegistered)
    (hordinal : ordinal ∈ ([0, 1] : List ℤ)) :
    makeResult { candidate with ordinal } sampleBatch sampleShard "SYNTHETIC-001"
      "DEVELOPMENT_FAIL" ["NO_EDGE"] .nil = .ok (sampleRow candidate ordinal) :=
  makeResult_eq_ok.mpr ⟨⟨by decide, by decide, rfl⟩, fun h => absurd rfl h, _,
    (writable_sampleBody hcandidate hordinal).digestOf, rfl⟩

theorem lookup_sampleRow {key : String} (hkey : key ≠ "result_record_sha256") :
    (sampleRow candidate ordinal).lookup key = (resultEntries { candidate with ordinal } sampleBatch
      sampleShard "SYNTHETIC-001" "DEVELOPMENT_FAIL" ["NO_EDGE"] .nil).lookup key := by
  rw [sampleRow, JsonMembers.lookup_insert, if_neg hkey, sampleBody, lookup_resultBody]

theorem reasonsOf_sampleRow :
    reasonsOf (sampleRow candidate ordinal) = .ok [.str "NO_EDGE"] := by
  have hreasons : fieldOf (.object (sampleRow candidate ordinal)) "failure_reasons" =
      .ok (.list [.str "NO_EDGE"]) := by
    rw [fieldOf_eq_ok, get?, lookup_sampleRow (by decide)]
    rfl
  rw [reasonsOf, hreasons]
  rfl

theorem addResult_sampleRow (hcandidate : candidate ∈ sampleRegistered)
    (hordinal : ordinal ∈ ([0, 1] : List ℤ))
    (hnew : candidate.candidateId ∉ found.map fun e => e.1.candidateId) :
    addResult sampleBatch sampleRegistered "SYNTHETIC-001" sampleShard found
      (.object (sampleRow candidate ordinal)) = .ok (found ++ [(candidate, sampleRow candidate ordinal)]) := by
  have hstate : ∀ c ∈ sampleRegistered, c.state ≠ some structurallyInvalid := by decide
  exact addResult_of_makeResult (by decide) hcandidate (makeResult_sampleRow hcandidate hordinal) rfl
    rfl (fun h => absurd h (hstate candidate hcandidate)) hnew

theorem checkBatch_sampleBatch :
    checkBatch sampleBatch sampleRegistered [sampleArtifact first second] = .ok () := by
  have hmetadata : ¬ (sampleBatch.safety.same ledgerSafety = false ∨
      sampleBatch.evidencePartition ≠ "DEVELOPMENT" ∨
      (sampleRegistered.length : ℤ) ≠ sampleBatch.rawCandidateCount ∨
      [sampleArtifact first second].length ≠ sampleBatch.shardLayout.length) := by
    rintro (h | h | h | h)
    · revert h
      decide +kernel
    · exact h rfl
    · exact h rfl
    · exact h rfl
  have htexts : sampleRegistered.mapM (fun r => textOf r.toDict) =
      .ok (sampleRegistered.map fun r => r.toDict.normal.canonical) := by
    have hchecked : ∀ r ∈ sampleRegistered, r.toDict.hasNonFinite = false ∧
        r.toDict.hasLongInteger = false := by decide +kernel
    refine mapM_eq_map fun r hr => ?_
    obtain ⟨hfinite, hshort⟩ := hchecked r hr
    rw [textOf, canonicalText_eq_ok.mpr ⟨hfinite, hshort, rfl⟩]
    rfl
  have hsha : sampleBatch.candidateLedgerSha256 =
      Sha256.hexDigest (sampleRegistered.map fun r => r.toDict.normal.canonical).flatten := rfl
  unfold checkBatch
  rw [raiseIf_neg hmetadata, ok_bind, htexts, ok_bind, raiseIf_neg (not_not_intro hsha.symm), ok_bind,
    raiseIf_neg (by decide), ok_bind, raiseIf_neg (by decide), ok_bind, raiseIf_neg (by decide)]

theorem writable_sampleRows (hfirst : first ∈ sampleRegistered)
    (hsecond : second ∈ sampleRegistered) : ∀ m ∈ sampleRows first second, Writable m := by
  rw [sampleRows, forall_mem_cons, forall_mem_singleton]
  exact ⟨writable_sampleRow hfirst (by decide), writable_sampleRow hsecond (by decide)⟩

theorem ordinal_sampleRow : (sampleRow candidate ordinal).lookup "ordinal" = some (.int ordinal) :=
  (lookup_sampleRow (by decide)).trans rfl

attribute [irreducible] sampleRow

theorem readRows_sampleArtifact (hfirst : first ∈ sampleRegistered)
    (hsecond : second ∈ sampleRegistered) :
    readRows (sampleArtifact first second) = .ok ((sampleRows first second).map .object) := by
  refine readRows_of_writable (writable_sampleRows hfirst hsecond) rfl rfl rfl fun i hi => ?_
  match i, hi with
  | 0, _ => exact ordinal_sampleRow
  | 1, _ => exact ordinal_sampleRow

/-- What is found in the shard. -/
def sampleFound (first second : Registration) : List (Registration × JsonMembers) :=
  [(first, sampleRow first 0), (second, sampleRow second 1)]

theorem closeShards_sampleArtifact (hfirst : first ∈ sampleRegistered)
    (hsecond : second ∈ sampleRegistered) (hne : second.candidateId ≠ first.candidateId) :
    [sampleArtifact first second].foldlM
      (closeShard sampleBatch sampleRegistered "SYNTHETIC-001") ⟨[], []⟩ =
        .ok ⟨[sampleShard.shardId], sampleFound first second⟩ := by
  have hcheck : admitShard sampleBatch [] (sampleArtifact first second) = .ok () := by
    refine unit_bind_eq_ok.mpr ⟨rfl, raiseIf_eq_ok.mpr ?_⟩
    rintro (h | h | h | h)
    · exact h mem_cons_self
    · cases h
    · cases h
    · exact h rfl
  have hsecond' : second.candidateId ∉ ([(first, sampleRow first 0)] : List
      (Registration × JsonMembers)).map fun e => e.1.candidateId := by
    rw [map_singleton, mem_singleton]
    exact hne
  have hrows : ((sampleRows first second).map Json.object).foldlM
      (addResult sampleBatch sampleRegistered "SYNTHETIC-001" sampleShard) [] =
        .ok (sampleFound first second) := by
    rw [sampleRows, map_cons, map_singleton, foldlM_cons,
      addResult_sampleRow hfirst (by decide) not_mem_nil, ok_bind, nil_append,
      foldlM_cons, addResult_sampleRow hsecond (by decide) hsecond', ok_bind]
    rfl
  refine (foldlM_cons ..).trans (bind_eq_ok.mpr ⟨_, unit_bind_eq_ok.mpr ⟨hcheck,
    bind_eq_ok.mpr ⟨_, readRows_sampleArtifact hfirst hsecond, bind_eq_ok.mpr ⟨_, hrows, rfl⟩⟩⟩,
      rfl⟩)

theorem summarize_sampleFound (hfirst : first ∈ sampleRegistered)
    (hsecond : second ∈ sampleRegistered) :
    ∃ closeout, summarize (sampleFound first second) = .ok closeout := by
  have hwritable : ∀ e ∈ sampleFound first second, Writable e.2 := by
    rw [sampleFound, forall_mem_cons, forall_mem_singleton]
    exact ⟨writable_sampleRow hfirst (by decide), writable_sampleRow hsecond (by decide)⟩
  have hreasons : (sampleFound first second).mapM (fun e => reasonsOf e.2) =
      .ok ((sampleFound first second).map fun _ => [str "NO_EDGE"]) := by
    refine mapM_eq_map ?_
    rw [sampleFound, forall_mem_cons, forall_mem_singleton]
    exact ⟨reasonsOf_sampleRow, reasonsOf_sampleRow⟩
  generalize sampleFound first second = found at *
  have hordered : ∃ sha, digestOf (.list ((found.insertionSort fun a b =>
      a.1.candidateId ≤ b.1.candidateId).map fun e => .object e.2)) = .ok sha := by
    refine ⟨_, mapError_eq_ok.mpr (digestText_eq_ok.mpr ⟨hasNonFinite_list fun v hv => ?_,
      hasLongInteger_list fun v hv => ?_, rfl⟩)⟩
    · obtain ⟨e, he, rfl⟩ := mem_map.mp hv
      exact (hwritable e ((mem_insertionSort _).mp he)).finite
    · obtain ⟨e, he, rfl⟩ := mem_map.mp hv
      exact (hwritable e ((mem_insertionSort _).mp he)).short
  obtain ⟨sha, hsha⟩ := hordered
  exact ⟨_, bind_eq_ok.mpr ⟨_, hreasons, bind_eq_ok.mpr ⟨sha, hsha, rfl⟩⟩⟩

/-- The closeout takes the two results in both orders. -/
theorem reconcile_sampleArtifact (h : [first, second].Perm sampleRegistered) :
    ∃ closeout, reconcile sampleBatch sampleRegistered [sampleArtifact first second]
      "SYNTHETIC-001" = .ok closeout := by
  have hfirst : first ∈ sampleRegistered := h.mem_iff.mp mem_cons_self
  have hsecond : second ∈ sampleRegistered :=
    h.mem_iff.mp (mem_cons_of_mem _ mem_cons_self)
  have hids : ([first, second].map Registration.candidateId).Nodup :=
    (h.map _).nodup_iff.mpr (by decide)
  have hne : second.candidateId ≠ first.candidateId := by
    intro heq
    simp [heq] at hids
  have hmissing : ¬ ∃ r ∈ sampleRegistered,
      r.candidateId ∉ (sampleFound first second).map fun e => e.1.candidateId := by
    rintro ⟨r, hr, hmiss⟩
    exact hmiss ((h.map Registration.candidateId).mem_iff.mpr (mem_map_of_mem hr))
  obtain ⟨closeout, hcloseout⟩ := summarize_sampleFound hfirst hsecond
  exact ⟨closeout, unit_bind_eq_ok.mpr ⟨checkBatch_sampleBatch, bind_eq_ok.mpr ⟨_,
    closeShards_sampleArtifact hfirst hsecond hne, raiseIf_bind_eq_ok.mpr ⟨hmissing, hcloseout⟩⟩⟩⟩

theorem rowsOf_sampleArtifact (h : [first, second].Perm sampleRegistered) :
    rowsOf (sampleArtifact first second) =
      [.object (sampleRow first 0), .object (sampleRow second 1)] := by
  have hread := readRows_sampleArtifact (h.mem_iff.mp mem_cons_self)
    (h.mem_iff.mp (mem_cons_of_mem _ mem_cons_self))
  rw [rowsOf, hread]
  rfl

theorem id_sampleRow : (Json.object (sampleRow candidate ordinal)).get? "candidate_id" =
    some (.str candidate.candidateId) := (lookup_sampleRow (by decide)).trans rfl

theorem named_sampleRow {other : Registration} (hcandidate : candidate ∈ sampleRegistered)
    (hother : other ∈ sampleRegistered)
    (hid : (Json.object (sampleRow candidate ordinal)).get? "candidate_id" =
      some (.str other.candidateId)) : other = candidate := by
  rw [id_sampleRow] at hid
  have hids : (sampleRegistered.map Registration.candidateId).Nodup := by decide
  exact inj_on_of_nodup_map hids hother hcandidate
    (str.inj (Option.some.inj hid)).symm

/-- Results in the order of the registered ordinals bind their candidates. -/
theorem complete_batch_binds_sample : Binds sampleBatch sampleRegistered
    [sampleArtifact (sampleRegistration 0 "MCF-2025-01-000000" "5e0")
      (sampleRegistration 1 "MCF-2025-01-000001" "5e1")] := by
  have hperm : [sampleRegistration 0 "MCF-2025-01-000000" "5e0",
      sampleRegistration 1 "MCF-2025-01-000001" "5e1"].Perm sampleRegistered := .refl _
  obtain ⟨closeout, h⟩ := reconcile_sampleArtifact hperm
  refine (complete_batch_binds_iff h).mpr ⟨?_, List.pairwise_singleton _ _⟩
  intro a ha i row hrow other hother hid
  cases List.mem_singleton.mp ha
  rw [rowsOf_sampleArtifact hperm] at hrow
  match i, hrow with
  | 0, rfl =>
    rw [named_sampleRow List.mem_cons_self hother hid]
    rfl
  | 1, rfl =>
    rw [named_sampleRow (List.mem_cons_of_mem _ List.mem_cons_self) hother hid]
    rfl

/-- The same results with the two candidates exchanged are complete, and not bound to their
candidates. -/
theorem exchanged_results_complete :
    (∃ closeout, reconcile sampleBatch sampleRegistered
      [sampleArtifact (sampleRegistration 1 "MCF-2025-01-000001" "5e1")
        (sampleRegistration 0 "MCF-2025-01-000000" "5e0")] "SYNTHETIC-001" = .ok closeout) ∧
    ¬ Binds sampleBatch sampleRegistered
      [sampleArtifact (sampleRegistration 1 "MCF-2025-01-000001" "5e1")
        (sampleRegistration 0 "MCF-2025-01-000000" "5e0")] := by
  have hperm : [sampleRegistration 1 "MCF-2025-01-000001" "5e1",
      sampleRegistration 0 "MCF-2025-01-000000" "5e0"].Perm sampleRegistered := .swap _ _ _
  obtain ⟨closeout, h⟩ := reconcile_sampleArtifact hperm
  refine ⟨⟨closeout, h⟩, fun hbinds => ?_⟩
  obtain ⟨pairs, hcomplete⟩ := complete_of_reconcile h
  have hrow : (rowsOf (sampleArtifact (sampleRegistration 1 "MCF-2025-01-000001" "5e1")
      (sampleRegistration 0 "MCF-2025-01-000000" "5e0")))[0]? =
        some (.object (sampleRow (sampleRegistration 1 "MCF-2025-01-000001" "5e1") 0)) := by
    rw [rowsOf_sampleArtifact hperm]
    rfl
  have horder := hcomplete.inRegisteredOrder hbinds _ List.mem_cons_self 0 _ hrow _
    (hperm.mem_iff.mp List.mem_cons_self) id_sampleRow
  exact absurd horder (by decide)

end Sample

end TradingLab.Factory.Ledger
