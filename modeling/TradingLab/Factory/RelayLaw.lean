import TradingLab.Factory.BundleIngest

/-!
# The result relay

Workers leave the artifacts of a batch and its manifest at a relay, and the
receiver pulls them from there. It writes each artifact as soon as it is
downloaded and reconciles the manifest after the last one, whereas a bundle is
validated line by line before anything is written. A polling pass ingests the
batches that the coordinator lists as ready, one after another.
-/

namespace TradingLab.Factory

def maxDownloadBytes : ℕ := 16 * 1024 * 1024

/-- A body that the relay serves, with the digests in its headers. -/
structure ServedObject where
  raw : List Char
  rawSha256 : Option String := none
  semanticSha256 : Option String := none
deriving Repr, DecidableEq

inductive Download where
  | served (o : ServedObject)
  | rejected (code : ℕ)
  | unavailable (reason : String)
deriving Repr, DecidableEq

/-- What relay and coordinator answer while a batch is ingested. -/
structure Relay where
  object : String → Download
  /-- The status with which the coordinator acknowledges a batch and its manifest. -/
  acknowledge : String → String → Except Failure String

def manifestKey (plan : Plan) (code sha : String) : String :=
  "results/" ++ plan.planSha256 ++ "/" ++ code ++ "/batch-manifest-" ++ sha ++ ".json"

def artifactKey (plan : Plan) (code candidateId sha : String) : String :=
  "results/" ++ plan.planSha256 ++ "/" ++ code ++ "/" ++ candidateId ++ "/result-" ++ sha ++ ".json"

/-- A header that is there and not empty is compared with what it declares. -/
def Contradicts (header : Option String) (sha : String) : Prop :=
  ∃ h ∈ header, h ≠ "" ∧ h ≠ sha

instance (header : Option String) (sha : String) : Decidable (Contradicts header sha) := by
  unfold Contradicts
  infer_instance

namespace Relay

def _getObject (relay : Relay) (key expectedSemanticSha256 : String) :
    Except Failure (List Char) :=
  match relay.object key with
  | .rejected code => .error (.mcf ("R2 ingest download rejected: HTTP " ++ toString code))
  | .unavailable reason => .error (.mcf ("R2 ingest unavailable: " ++ reason))
  | .served o => do
      raiseIf (maxDownloadBytes < byteLength o.raw)
        (.mcf "R2 ingest object exceeds bounded download size")
      raiseIf (Contradicts o.semanticSha256 expectedSemanticSha256)
        (.mcf "R2 semantic SHA metadata mismatch")
      raiseIf (Contradicts o.rawSha256 (Sha256.hexDigest o.raw)) (.mcf "R2 raw SHA metadata mismatch")
      return o.raw

/-- The manifest that was downloaded, when it is the one the coordinator has recorded. -/
def readManifest (plan : Plan) (sha : String) (raw : List Char) : Except Failure JsonMembers :=
  match Json.loads (String.ofList raw) with
  | none => .error (.mcf "downloaded batch manifest is not JSON")
  | some v => do
      let text ← canonicalText v
      raiseIf (text ≠ raw) (.mcf "downloaded batch manifest is not canonical")
      match v with
      | .object manifest => do
          validateBatchManifestStructure plan manifest
          raiseIf (manifest.lookup "batch_result_manifest_sha256" ≠ some (.str sha))
            (.mcf "downloaded batch manifest semantic identity mismatch")
          return manifest
      | _ => .error .attributeError

def downloadManifest (relay : Relay) (plan : Plan) (code sha : String) :
    Except Failure JsonMembers := do
  let raw ← relay._getObject (manifestKey plan code sha) sha
  readManifest plan sha raw

/-- The artifact of a manifest row as it is served, at the path it goes to. -/
def downloadArtifact (relay : Relay) (plan : Plan) (code : String) (row : Json) :
    Except Failure File := do
  let raw ← relay._getObject (artifactKey plan code (rowField row "candidate_id") (rowSha row))
    (rowSha row)
  let path ← artifactPath code row
  return ⟨path, raw⟩

/-- Download the artifacts of the rows, and write each one at once. -/
def storeArtifacts (relay : Relay) (plan : Plan) (code : String) : List Json → RootCall Unit
  | [] => pure ()
  | row :: rows => do
      let file ← Method.check (relay.downloadArtifact plan code row)
      writeOnce file.path file.text
      relay.storeArtifacts plan code rows

end Relay

structure IngestedBatch where
  batchCode : String
  candidateCount : Json
  manifestSha256 : String
deriving Repr, DecidableEq

/-- The results root, and the batches that the coordinator has acknowledged. -/
structure RelaySite where
  results : Files
  acknowledged : List String

abbrev RelayCall (α : Type) : Type := Method RelaySite Failure α

/-- The coordinator marks a batch whose manifest reconciles. -/
def Relay.markIngested (relay : Relay) (code sha : String) : RelayCall Unit := do
  let status ← Method.check (relay.acknowledge code sha)
  Method.check (raiseIf (status ≠ "BATCH_INGESTED")
    (.mcf "coordinator did not acknowledge verified ingest"))
  Method.modify fun s => { s with acknowledged := s.acknowledged ++ [code] }

/-- Pull a batch, reconcile it and have it acknowledged. -/
def ingestBatchFromR2 (plan : Plan) (relay : Relay) (code sha : String) :
    RelayCall IngestedBatch := do
  let manifest ← Method.check (relay.downloadManifest plan code sha)
  Method.zoom RelaySite.results (fun files s => { s with results := files }) id
    (relay.storeArtifacts plan code (manifestRows manifest))
  let files ← Method.read RelaySite.results
  Method.check (verifyBatchManifest files plan manifest)
  relay.markIngested code sha
  return ⟨code, (manifest.lookup "candidate_count").getD .null, sha⟩

/-- A batch in the coordinator's status, with what is served when its turn comes. -/
structure ListedBatch where
  batchCode : String
  state : String
  transferMode : Option String
  manifestSha256 : String
  relay : Relay

structure Iteration where
  ingested : List IngestedBatch
  skipped : List String

/-- Go through the listed batches; the first one that raises ends the pass. -/
def ingestEach (plan : Plan) : List ListedBatch → Iteration → RelayCall Iteration
  | [], done => pure done
  | b :: rest, done =>
      if b.state ≠ "AWAITING_INGEST" then ingestEach plan rest done
      else if b.transferMode ≠ some "R2" then
        ingestEach plan rest { done with skipped := done.skipped ++ [b.batchCode] }
      else do
        let batch ← ingestBatchFromR2 plan b.relay b.batchCode b.manifestSha256
        ingestEach plan rest { done with ingested := done.ingested ++ [batch] }

/-- One iteration, from the answer to the request for the status. -/
def ingestReadyBatchesOnce (plan : Plan) (status : Except Failure (List ListedBatch)) :
    RelayCall Iteration := do
  let batches ← Method.check status
  ingestEach plan batches ⟨[], []⟩

end TradingLab.Factory

/-!
## Ingesting from the relay

A call leaves every artifact it was served, up to the first one that it could not
store, whether or not the manifest then reconciles. A root takes in the content of
a batch exactly when the directories of its candidates hold nothing else, so what
a call that raises leaves behind decides whether the batch can still be ingested.
-/

namespace TradingLab.Factory

namespace Relay
variable {relay : Relay} {plan : Plan} {code sha : String} {rows : List Json} {files : Files}
  {file : File}

/-- The served artifacts that a root does not hold, up to the first that cannot be stored. -/
def newArtifacts (relay : Relay) (plan : Plan) (code : String) : List Json → Files → List File
  | [], _ => []
  | row :: rows, files =>
      match relay.downloadArtifact plan code row with
      | .error _ => []
      | .ok file =>
          match files.find? file.path with
          | none => file :: relay.newArtifacts plan code rows (files.put file)
          | some old =>
              if old.text = file.text then relay.newArtifacts plan code rows files else []

/-- What the relay offers a root for a batch and the digest of its manifest. -/
def offered (relay : Relay) (plan : Plan) (code sha : String) (files : Files) : List File :=
  match relay.downloadManifest plan code sha with
  | .error _ => []
  | .ok manifest => relay.newArtifacts plan code (manifestRows manifest) files

theorem mem_storeArtifacts :
    file ∈ ((relay.storeArtifacts plan code rows).after files).rows ↔
      file ∈ files.rows ∨ file ∈ relay.newArtifacts plan code rows files := by
  induction rows generalizing files with
  | nil => simp [storeArtifacts, newArtifacts, Method.after]
  | cons row rows ih =>
    unfold storeArtifacts newArtifacts Method.after
    rw [Method.call_bind, Method.call_check]
    cases relay.downloadArtifact plan code row with
    | error e => simp
    | ok next =>
      dsimp only
      rw [Method.call_bind]
      cases hfind : files.find? next.path with
      | none =>
        rw [call_writeOnce_of_none next.text hfind]
        dsimp only
        rw [List.mem_cons, ← or_assoc]
        refine ih.trans (or_congr_left ?_)
        rw [Table.rows_put_of_find?_none hfind, List.mem_append, List.mem_singleton]
      | some old =>
        rw [call_writeOnce_of_some next.text hfind]
        dsimp only
        by_cases htext : old.text = next.text
        · rw [raiseIf_neg (not_not.mpr htext), if_pos htext]
          exact ih
        · rw [raiseIf_pos htext, if_neg htext]
          simp

theorem not_mem_of_newArtifacts (h : file ∈ relay.newArtifacts plan code rows files) :
    file ∉ files.rows := by
  induction rows generalizing files with
  | nil => cases h
  | cons row rows ih =>
    unfold newArtifacts at h
    split at h
    · cases h
    · rename_i next hnext
      split at h
      · rename_i hfind
        rcases List.mem_cons.mp h with rfl | h
        · intro hmem
          rw [Table.find?_of_mem hmem] at hfind
          cases hfind
        · intro hmem
          apply ih h
          rw [Table.rows_put_of_find?_none hfind]
          exact List.mem_append_left _ hmem
      · split at h
        · exact ih h
        · cases h

theorem not_mem_of_offered (h : file ∈ relay.offered plan code sha files) : file ∉ files.rows := by
  unfold offered at h
  split at h
  · cases h
  · exact not_mem_of_newArtifacts h

theorem results_markIngested (s : RelaySite) :
    ((relay.markIngested code sha).call s).2.results = s.results := by
  unfold markIngested
  rw [Method.call_bind, Method.call_check]
  cases relay.acknowledge code sha with
  | error e => rfl
  | ok status =>
    dsimp only
    rw [Method.call_bind, Method.call_check]
    cases raiseIf (status ≠ "BATCH_INGESTED")
        (Failure.mcf "coordinator did not acknowledge verified ingest") with
    | error e => rfl
    | ok u => rfl

/-- A call adds what it is offered, and nothing else. -/
theorem mem_ingestBatchFromR2 (s : RelaySite) :
    file ∈ ((ingestBatchFromR2 plan relay code sha).call s).2.results.rows ↔
      file ∈ s.results.rows ∨ file ∈ relay.offered plan code sha s.results := by
  unfold ingestBatchFromR2 offered
  rw [Method.call_bind, Method.call_check]
  cases relay.downloadManifest plan code sha with
  | error e => simp
  | ok manifest =>
    dsimp only
    rw [← mem_storeArtifacts, Method.call_bind, Method.call_zoom]
    unfold Method.after
    rcases (relay.storeArtifacts plan code (manifestRows manifest)).call s.results with ⟨⟨e⟩ | ⟨u⟩, t⟩
    · rfl
    · dsimp only
      rw [Method.call_read_bind, Method.call_bind, Method.call_check]
      cases verifyBatchManifest t plan manifest with
      | error e => rfl
      | ok u =>
        dsimp only
        rw [Method.call_bind]
        have hkept := @results_markIngested relay code sha { s with results := t }
        rcases hmark : (relay.markIngested code sha).call { s with results := t } with ⟨⟨e⟩ | ⟨u⟩, t'⟩
        · rw [hmark] at hkept
          exact iff_of_eq (congrArg (fun files : Files => file ∈ files.rows) hkept)
        · rw [hmark] at hkept
          exact iff_of_eq (congrArg (fun files : Files => file ∈ files.rows) hkept)

/-- A call that returned has stored every artifact. -/
theorem stored_of_returns {files' : Files} {row : Json} {u : Unit}
    (h : (relay.storeArtifacts plan code rows).call files = (.ok u, files')) (hrow : row ∈ rows)
    (hfile : relay.downloadArtifact plan code row = .ok file) : file ∈ files'.rows := by
  induction rows generalizing files with
  | nil => cases hrow
  | cons first rows ih =>
    unfold storeArtifacts at h
    obtain ⟨next, hnext, h⟩ := Method.call_check_bind_eq_ok.mp h
    obtain ⟨_, mid, hwrite, hrest⟩ := Method.call_bind_eq_ok.mp h
    rcases List.mem_cons.mp hrow with rfl | hrow
    · rw [hfile] at hnext
      cases hnext
      have hmid : file ∈ mid.rows := by
        cases hfind : files.find? file.path with
        | none =>
          rw [call_writeOnce_of_none file.text hfind] at hwrite
          cases hwrite
          rw [Table.rows_put_of_find?_none hfind]
          exact List.mem_append_right _ List.mem_cons_self
        | some old =>
          rw [call_writeOnce_of_some file.text hfind] at hwrite
          obtain ⟨htext, rfl⟩ := Prod.mk.inj hwrite
          have hsame : old = file := by
            cases old
            cases file
            exact congrArg₂ File.mk (Table.key_of_find? hfind) (not_not.mp (raiseIf_eq_ok.mp htext))
          rw [← hsame]
          exact Table.mem_of_find? hfind
      have hgrow := @mem_storeArtifacts relay plan code rows mid file
      unfold Method.after at hgrow
      rw [hrest] at hgrow
      exact hgrow.mpr (.inl hmid)
    · exact ih hrest hrow

theorem markIngested_eq_ok {s s' : RelaySite} {u : Unit}
    (h : (relay.markIngested code sha).call s = (.ok u, s')) :
    s' = { s with acknowledged := s.acknowledged ++ [code] } := by
  unfold markIngested at h
  obtain ⟨status, -, h⟩ := Method.call_check_bind_eq_ok.mp h
  obtain ⟨_, -, h⟩ := Method.call_check_bind_eq_ok.mp h
  exact (Prod.mk.inj h).2.symm

/-- A call that returned has stored the artifacts, and the manifest reconciled to them. -/
theorem reconciled_of_returns {s s' : RelaySite} {ingested : IngestedBatch} {manifest : JsonMembers}
    (hmanifest : relay.downloadManifest plan code sha = .ok manifest)
    (h : (ingestBatchFromR2 plan relay code sha).call s = (.ok ingested, s')) : ∃ files',
      (relay.storeArtifacts plan code (manifestRows manifest)).call s.results = (.ok (), files') ∧
        verifyBatchManifest files' plan manifest = .ok () ∧
        s'.acknowledged = s.acknowledged ++ [code] := by
  unfold ingestBatchFromR2 at h
  obtain ⟨found, hfound, h⟩ := Method.call_check_bind_eq_ok.mp h
  rw [hmanifest] at hfound
  cases hfound
  obtain ⟨_, t, hstore, h⟩ := Method.call_bind_eq_ok.mp h
  rw [Method.call_zoom] at hstore
  rcases hstored : (relay.storeArtifacts plan code (manifestRows manifest)).call s.results with
    ⟨⟨e⟩ | ⟨⟨⟩⟩, files'⟩
  · rw [hstored] at hstore
    cases hstore
  · rw [hstored] at hstore
    cases hstore
    rw [Method.call_read_bind] at h
    obtain ⟨_, hverify, h⟩ := Method.call_check_bind_eq_ok.mp h
    obtain ⟨_, t', hmark, h⟩ := Method.call_bind_eq_ok.mp h
    cases h
    rw [markIngested_eq_ok hmark]
    exact ⟨files', rfl, hverify, rfl⟩

end Relay

/-- A file is named by the digest of what it says. -/
structure Identified (file : File) : Prop where
  named : ∃ document sha, readMapping file.text = .ok document ∧
    canonicalText (.object document) = .ok file.text ∧
    digestText (.object (identityOf document)) = .ok sha ∧
    document.lookup "result_artifact_sha256" = some (.str sha) ∧
    file.path.getLast? = some (resultFileName sha)

/-- A complete batch, as a worker has uploaded it. -/
structure UploadedBatch (plan : FrozenPlan) where
  code : String
  frozen : PlanBatch
  listed : batch plan.toPlan code = .ok frozen
  sender : Files
  results : BatchResults
  built : buildBatchManifest sender plan.toPlan code = .ok (batchManifest plan.toPlan frozen results)
  verified : verifyBatchManifest sender plan.toPlan (batchManifest plan.toPlan frozen results) = .ok ()
  /-- The artifacts are where the upload reads them. -/
  sent : ∀ row ∈ frozen.candidates, ∃ file,
    SentArtifact plan.toPlan code results.artifactSha sender row file

namespace UploadedBatch
variable {plan : FrozenPlan} (own : UploadedBatch plan)

def manifest : JsonMembers := batchManifest plan.toPlan own.frozen own.results

def sha : String := manifestSha own.manifest

/-- The file is one of the artifacts. -/
def Holds (file : File) : Prop :=
  ∃ row ∈ own.frozen.candidates,
    SentArtifact plan.toPlan own.code own.results.artifactSha own.sender row file

/-- The file is taken for a result of one of the candidates. -/
def Meets (file : File) : Prop :=
  ∃ row ∈ own.frozen.candidates, file.path.dropLast = resultDir own.code row ∧
    (file.path.getLast?).any isResultName = true

/-- The relay serves the batch, and the coordinator acknowledges it. -/
structure Served (relay : Relay) : Prop where
  manifest : ∃ text, canonicalText (.object own.manifest) = .ok text ∧
    relay._getObject (manifestKey plan.toPlan own.code own.sha) own.sha = .ok text
  artifacts : ∀ row ∈ own.frozen.candidates, ∀ file,
    SentArtifact plan.toPlan own.code own.results.artifactSha own.sender row file →
      relay._getObject (artifactKey plan.toPlan own.code row.candidateId (own.results.artifactSha row))
        (own.results.artifactSha row) = .ok file.text
  acknowledged : relay.acknowledge own.code own.sha = .ok "BATCH_INGESTED"

/-- A root from which the batch is ingested when it is served. -/
def Ingestable (files : Files) : Prop :=
  ∀ relay, own.Served relay → ∀ acknowledged,
    (ingestBatchFromR2 plan.toPlan relay own.code own.sha).Returns ⟨files, acknowledged⟩

def Clean (files : Files) : Prop := ∀ file ∈ files.rows, own.Meets file → own.Holds file

variable {own} {file : File} {files : Files} {relay : Relay} {row : PlanCandidate}

theorem Holds.meets (h : own.Holds file) : own.Meets file := by
  obtain ⟨row, hrow, hsent⟩ := h
  refine ⟨row, hrow, ?_, ?_⟩
  · rw [hsent.path]
    rfl
  · rw [hsent.path]
    exact isResultName_resultFile _ _ _

theorem Holds.identified (h : own.Holds file) : Identified file := by
  obtain ⟨row, hrow, hsent⟩ := h
  obtain ⟨document, hstored, hsha⟩ := hsent.stored
  obtain ⟨sha, hdigest, hlookup⟩ := hstored.valid.sha
  refine ⟨document, sha, hstored.read, hstored.valid.text, hdigest, hlookup, ?_⟩
  have hsame : own.results.artifactSha row = sha := by
    rw [← hsha, artifactSha, textField, hlookup]
    rfl
  rw [hsent.path, hsame]
  rfl

theorem sent_unique_row {other : PlanCandidate} {file' : File} (hrow : row ∈ own.frozen.candidates)
    (hother : other ∈ own.frozen.candidates)
    (h : SentArtifact plan.toPlan own.code own.results.artifactSha own.sender row file)
    (h' : SentArtifact plan.toPlan own.code own.results.artifactSha own.sender other file')
    (hdir : file'.path.dropLast = resultDir own.code row) : file' = file := by
  rw [h'.path, resultFile_dropLast] at hdir
  unfold resultDir at hdir
  have hid : other.candidateId = row.candidateId := by simpa using hdir
  have hsame := List.inj_on_of_nodup_map (nodup_candidateIds own.listed) hother hrow hid
  subst hsame
  obtain ⟨document, hstored, -⟩ := h.stored
  obtain ⟨document', hstored', -⟩ := h'.stored
  have honly := hstored.only
  rw [hstored'.only] at honly
  exact List.singleton_inj.mp honly

theorem valid (own : UploadedBatch plan) : ValidManifest plan.toPlan own.manifest := by
  have h := own.verified
  unfold verifyBatchManifest at h
  exact (unit_bind_eq_ok.mp h).1

theorem Served.downloadManifest (h : own.Served relay) :
    relay.downloadManifest plan.toPlan own.code own.sha = .ok own.manifest := by
  obtain ⟨text, htext, hobject⟩ := h.manifest
  have hheld : own.manifest.Held := held_batchManifest _ _ _
  have hloads := readMapping_eq_ok.mp (readMapping_canonical hheld htext)
  have hvalid := own.valid
  unfold ValidManifest at hvalid
  have hsha : own.manifest.lookup "batch_result_manifest_sha256" = some (.str own.sha) :=
    manifestSha_batchManifest _ _ _
  unfold Relay.downloadManifest Relay.readManifest
  rw [hobject, ok_bind, hloads]
  dsimp only
  rw [htext, ok_bind, raiseIf_neg (not_not.mpr rfl), ok_bind, hvalid, ok_bind, hsha,
    raiseIf_neg (not_not.mpr rfl)]
  rfl

theorem Served.downloadArtifact (h : own.Served relay) (hrow : row ∈ own.frozen.candidates)
    (hsent : SentArtifact plan.toPlan own.code own.results.artifactSha own.sender row file) :
    relay.downloadArtifact plan.toPlan own.code (artifactEntry own.results.artifactSha row) =
      .ok file := by
  obtain ⟨document, hstored, hsha⟩ := hsent.stored
  have hhex : Sha256.isHexDigest (own.results.artifactSha row) = true := by
    rw [← hsha]
    exact isHexDigest_of_digestText hstored.valid.artifact.1
  have hpath := artifactPath_artifactEntry own.listed hrow hhex
  have hobject := h.artifacts row hrow file hsent
  have hid : rowField (artifactEntry own.results.artifactSha row) "candidate_id" = row.candidateId := by
    rw [rowField_artifactEntry]
    rfl
  unfold Relay.downloadArtifact
  rw [rowSha_artifactEntry, hid, hobject, ok_bind, hpath, ok_bind, ← hsent.path]
  rfl

/-- A clean root stores the batch. -/
theorem Served.stores (h : own.Served relay) (hclean : own.Clean files) {rows : List PlanCandidate}
    (hrows : ∀ row ∈ rows, row ∈ own.frozen.candidates) : ∃ files',
      (relay.storeArtifacts plan.toPlan own.code
        (rows.map (artifactEntry own.results.artifactSha))).call files = (.ok (), files') ∧
      own.Clean files' := by
  induction rows generalizing files with
  | nil => exact ⟨files, rfl, hclean⟩
  | cons row rows ih =>
    have hrow := hrows row List.mem_cons_self
    have hrest := fun r hr => hrows r (List.mem_cons_of_mem _ hr)
    obtain ⟨file, hsent⟩ := own.sent row hrow
    have hholds : own.Holds file := ⟨row, hrow, hsent⟩
    rw [List.map_cons]
    unfold Relay.storeArtifacts
    rw [Method.call_bind, Method.call_check, h.downloadArtifact hrow hsent]
    dsimp only
    rw [Method.call_bind]
    cases hfind : files.find? file.path with
    | none =>
      rw [call_writeOnce_of_none file.text hfind]
      apply ih _ hrest
      intro f hf hmeets
      rw [Table.rows_put_of_find?_none hfind, List.mem_append, List.mem_singleton] at hf
      rcases hf with hf | rfl
      · exact hclean f hf hmeets
      · exact hholds
    | some old =>
      have hold : old = file := by
        have hpath : old.path = file.path := Table.key_of_find? hfind
        have hmeets : own.Meets old := by
          unfold Meets
          rw [hpath]
          exact hholds.meets
        obtain ⟨other, hother, hsent'⟩ := hclean old (Table.mem_of_find? hfind) hmeets
        apply sent_unique_row hrow hother hsent hsent'
        rw [hpath, hsent.path]
        rfl
      rw [call_writeOnce_of_some file.text hfind, hold, raiseIf_neg (not_not.mpr rfl)]
      exact ih hclean hrest

theorem manifestRows_eq (own : UploadedBatch plan) : manifestRows own.manifest =
    own.frozen.candidates.map (artifactEntry own.results.artifactSha) :=
  manifestRows_batchManifest _ _ _

theorem code_manifest (own : UploadedBatch plan) :
    textField own.manifest "batch_code" = own.code := by
  have hcode := batchCode_batchManifest plan.toPlan own.frozen own.results
  rw [(batch_eq own.listed).2] at hcode
  unfold manifest textField
  rw [hcode]
  rfl

theorem verified_of_clean (hclean : own.Clean files)
    (hall : ∀ file, own.Holds file → file ∈ files.rows) :
    verifyBatchManifest files plan.toPlan own.manifest = .ok () := by
  have hglob : ∀ row ∈ own.frozen.candidates, globResults files (resultDir own.code row) =
      globResults own.sender (resultDir own.code row) := by
    intro row hrow
    obtain ⟨file, hsent⟩ := own.sent row hrow
    obtain ⟨document, hstored, -⟩ := hsent.stored
    have hholds : own.Holds file := ⟨row, hrow, hsent⟩
    rw [hstored.only]
    apply globResults_eq_singleton
    intro f
    rw [mem_globResults]
    constructor
    · rintro ⟨hf, hdir, hname⟩
      obtain ⟨other, hother, hsent'⟩ := hclean f hf ⟨row, hrow, hdir, hname⟩
      exact sent_unique_row hrow hother hsent hsent' hdir
    · rintro rfl
      refine ⟨hall f hholds, ?_, ?_⟩
      · rw [hsent.path]
        rfl
      · rw [hsent.path]
        exact isResultName_resultFile _ _ _
  rw [verifyBatchManifest_congr own.listed own.code_manifest hglob]
  exact own.verified

theorem Served.returns_of_clean (h : own.Served relay) (hclean : own.Clean files)
    (acknowledged : List String) :
    (ingestBatchFromR2 plan.toPlan relay own.code own.sha).Returns ⟨files, acknowledged⟩ := by
  obtain ⟨files', hstore, hclean'⟩ := h.stores hclean
    fun row (hrow : row ∈ own.frozen.candidates) => hrow
  rw [← own.manifestRows_eq] at hstore
  have hall : ∀ file, own.Holds file → file ∈ files'.rows := by
    rintro file ⟨row, hrow, hsent⟩
    apply Relay.stored_of_returns hstore _ (h.downloadArtifact hrow hsent)
    rw [own.manifestRows_eq]
    exact List.mem_map_of_mem hrow
  have hverified := verified_of_clean hclean' hall
  unfold Method.Returns ingestBatchFromR2 Relay.markIngested
  rw [Method.call_bind, Method.call_check, h.downloadManifest]
  dsimp only
  rw [Method.call_bind, Method.call_zoom, hstore]
  dsimp only
  rw [Method.call_read_bind, Method.call_bind, Method.call_check, hverified]
  dsimp only
  rw [h.acknowledged]
  exact ⟨_, rfl⟩

theorem stored_of_verified (hverify : verifyBatchManifest files plan.toPlan own.manifest = .ok ())
    (hrow : row ∈ own.frozen.candidates) :
    ∃ file document, Stored plan.toPlan own.code files row file document := by
  unfold verifyBatchManifest at hverify
  rw [own.code_manifest] at hverify
  obtain ⟨rebuilt, hrebuilt, -⟩ := bind_eq_ok.mp (unit_bind_eq_ok.mp hverify).2
  obtain ⟨documents, -, -, hall, -⟩ := (buildBatchManifest_eq_ok own.listed).mp hrebuilt
  obtain ⟨document, -, file, hstored⟩ := hall.mem_left hrow
  exact ⟨file, document, hstored⟩

/-- A root that has taken the batch in was clean. -/
theorem Served.clean_of_returns (h : own.Served relay) {acknowledged : List String}
    (hreturns : (ingestBatchFromR2 plan.toPlan relay own.code own.sha).Returns
      ⟨files, acknowledged⟩) : own.Clean files := by
  obtain ⟨ingested, hingested⟩ := hreturns
  obtain ⟨files', hstored, hverify, -⟩ :=
    Relay.reconciled_of_returns h.downloadManifest (Prod.ext hingested rfl)
  rintro file hfile ⟨row, hrow, hdir, hname⟩
  obtain ⟨kept, document, hkept⟩ := stored_of_verified hverify hrow
  obtain ⟨artifact, hsent⟩ := own.sent row hrow
  have hholds : own.Holds artifact := ⟨row, hrow, hsent⟩
  have hgrow := @Relay.mem_storeArtifacts relay plan.toPlan own.code (manifestRows own.manifest)
    files file
  unfold Method.after at hgrow
  rw [hstored] at hgrow
  have hartifact : artifact ∈ files'.rows := by
    apply Relay.stored_of_returns hstored _ (h.downloadArtifact hrow hsent)
    rw [own.manifestRows_eq]
    exact List.mem_map_of_mem hrow
  have hsame : file = kept := by
    have hmem := mem_globResults.mpr ⟨hgrow.mpr (.inl hfile), hdir, hname⟩
    rwa [hkept.only, List.mem_singleton] at hmem
  have hsame' : artifact = kept := by
    have hdir' : artifact.path.dropLast = resultDir own.code row := by
      rw [hsent.path]
      rfl
    have hname' : (artifact.path.getLast?).any isResultName = true := by
      rw [hsent.path]
      exact isResultName_resultFile _ _ _
    have hmem := mem_globResults.mpr ⟨hartifact, hdir', hname'⟩
    rwa [hkept.only, List.mem_singleton] at hmem
  rw [hsame, ← hsame']
  exact hholds

theorem ingestable_iff (h : own.Served relay) : own.Ingestable files ↔ own.Clean files := by
  constructor
  · intro hingest
    exact h.clean_of_returns (hingest relay h [])
  · intro hclean relay' h' acknowledged
    exact h'.returns_of_clean hclean acknowledged

/-- What a call that raises should leave of a root: every new file says what it is named for,
and the batch can still be ingested. -/
structure Unspoilt (own : UploadedBatch plan) (before after : Files) : Prop where
  identified : ∀ file ∈ after.rows, file ∉ before.rows → Identified file
  ingestable : own.Ingestable after

theorem unspoilt_iff {code sha : String} {s : RelaySite} {other : Relay} (h : own.Served other)
    (hbefore : own.Ingestable s.results) :
    own.Unspoilt s.results ((ingestBatchFromR2 plan.toPlan relay code sha).call s).2.results ↔
      ∀ file ∈ relay.offered plan.toPlan code sha s.results,
        own.Holds file ∨ Identified file ∧ ¬ own.Meets file := by
  have hclean := (ingestable_iff h).mp hbefore
  have hmem := fun file => @Relay.mem_ingestBatchFromR2 relay plan.toPlan code sha file s
  constructor
  · rintro ⟨hidentified, hingestable⟩ file hfile
    have hafter := (hmem file).mpr (.inr hfile)
    have hnew := hidentified file hafter (Relay.not_mem_of_offered hfile)
    by_cases hmeets : own.Meets file
    · exact .inl ((ingestable_iff h).mp hingestable file hafter hmeets)
    · exact .inr ⟨hnew, hmeets⟩
  · intro hoffered
    constructor
    · intro file hfile hnew
      rcases hoffered file (((hmem file).mp hfile).resolve_left hnew) with hholds | ⟨hnamed, -⟩
      · exact hholds.identified
      · exact hnamed
    · apply (ingestable_iff h).mpr
      intro file hfile hmeets
      rcases (hmem file).mp hfile with hold | hnew
      · exact hclean file hold hmeets
      · exact (hoffered file hnew).resolve_right fun hother => hother.2 hmeets

end UploadedBatch

section Pass
variable {plan : Plan} {batches rest : List ListedBatch} {b : ListedBatch} {s : RelaySite}
  {done : Iteration}

def ListedBatch.Ready (b : ListedBatch) : Prop :=
  b.state = "AWAITING_INGEST" ∧ b.transferMode = some "R2"

instance (b : ListedBatch) : Decidable b.Ready := by
  unfold ListedBatch.Ready
  infer_instance

/-- The same pass, if it went on after a batch that raises. -/
def afterEach (plan : Plan) : List ListedBatch → RelaySite → RelaySite
  | [], s => s
  | b :: rest, s =>
      if b.Ready then
        afterEach plan rest
          ((ingestBatchFromR2 plan b.relay b.batchCode b.manifestSha256).after s)
      else afterEach plan rest s

/-- No batch is accepted behind one that is rejected. -/
def RejectedLast (plan : Plan) (batches : List ListedBatch) (s : RelaySite) : Prop :=
  ∀ before b rest, batches = before ++ b :: rest → b.Ready →
    let t := afterEach plan before s
    let t' := (ingestBatchFromR2 plan b.relay b.batchCode b.manifestSha256).after t
    ¬ (ingestBatchFromR2 plan b.relay b.batchCode b.manifestSha256).Returns t →
      (afterEach plan rest t').acknowledged = t'.acknowledged

theorem afterEach_ready (h : b.Ready) : afterEach plan (b :: rest) s =
    afterEach plan rest ((ingestBatchFromR2 plan b.relay b.batchCode b.manifestSha256).after s) := by
  rw [afterEach, if_pos h]

theorem afterEach_other (h : ¬ b.Ready) :
    afterEach plan (b :: rest) s = afterEach plan rest s := by
  rw [afterEach, if_neg h]

theorem after_ingestEach_ready (h : b.Ready) : (ingestEach plan (b :: rest) done).after s =
    match (ingestBatchFromR2 plan b.relay b.batchCode b.manifestSha256).call s with
    | (.ok batch, t) =>
        (ingestEach plan rest { done with ingested := done.ingested ++ [batch] }).after t
    | (.error _, t) => t := by
  rw [ingestEach, if_neg (not_not.mpr h.1), if_neg (not_not.mpr h.2), Method.after, Method.call_bind]
  rcases (ingestBatchFromR2 plan b.relay b.batchCode b.manifestSha256).call s with ⟨⟨e⟩ | ⟨batch⟩, t⟩
  · rfl
  · rfl

theorem after_ingestEach_other (h : ¬ b.Ready) : ∃ done',
    (ingestEach plan (b :: rest) done).after s = (ingestEach plan rest done').after s := by
  rw [ingestEach]
  by_cases hstate : b.state = "AWAITING_INGEST"
  · have hmode : b.transferMode ≠ some "R2" := fun hmode => h ⟨hstate, hmode⟩
    rw [if_neg (not_not.mpr hstate), if_pos hmode]
    exact ⟨_, rfl⟩
  · rw [if_pos hstate]
    exact ⟨_, rfl⟩

theorem acknowledged_markIngested (relay : Relay) (code sha : String) (s : RelaySite) :
    s.acknowledged <+: ((relay.markIngested code sha).call s).2.acknowledged := by
  unfold Relay.markIngested
  rw [Method.call_bind, Method.call_check]
  cases relay.acknowledge code sha with
  | error e => exact List.prefix_rfl
  | ok status =>
    dsimp only
    rw [Method.call_bind, Method.call_check]
    cases raiseIf (status ≠ "BATCH_INGESTED")
        (Failure.mcf "coordinator did not acknowledge verified ingest") with
    | error e => exact List.prefix_rfl
    | ok u => exact List.prefix_append _ _

/-- What was acknowledged stays so. -/
theorem acknowledged_ingestBatchFromR2 (relay : Relay) (code sha : String) (s : RelaySite) :
    s.acknowledged <+: ((ingestBatchFromR2 plan relay code sha).after s).acknowledged := by
  unfold Method.after ingestBatchFromR2
  rw [Method.call_bind, Method.call_check]
  cases relay.downloadManifest plan code sha with
  | error e => exact List.prefix_rfl
  | ok manifest =>
    dsimp only
    rw [Method.call_bind, Method.call_zoom]
    rcases (relay.storeArtifacts plan code (manifestRows manifest)).call s.results with ⟨⟨e⟩ | ⟨u⟩, t⟩
    · exact List.prefix_rfl
    · dsimp only
      rw [Method.call_read_bind, Method.call_bind, Method.call_check]
      cases verifyBatchManifest t plan manifest with
      | error e => exact List.prefix_rfl
      | ok u =>
        dsimp only
        rw [Method.call_bind]
        have hmark := acknowledged_markIngested relay code sha { s with results := t }
        rcases hcall : (relay.markIngested code sha).call { s with results := t } with ⟨⟨e⟩ | ⟨u⟩, t'⟩
        · rw [hcall] at hmark
          exact hmark
        · rw [hcall] at hmark
          exact hmark

theorem acknowledged_afterEach (batches : List ListedBatch) (s : RelaySite) :
    s.acknowledged <+: (afterEach plan batches s).acknowledged := by
  induction batches generalizing s with
  | nil => exact List.prefix_rfl
  | cons b rest ih =>
    unfold afterEach
    split
    · exact (acknowledged_ingestBatchFromR2 _ _ _ s).trans (ih _)
    · exact ih s

theorem afterEach_append (before rest : List ListedBatch) (s : RelaySite) :
    afterEach plan (before ++ rest) s = afterEach plan rest (afterEach plan before s) := by
  induction before generalizing s with
  | nil => rfl
  | cons b before ih =>
    rw [List.cons_append, afterEach, afterEach]
    split
    · exact ih _
    · exact ih _

theorem rejectedLast_cons : RejectedLast plan (b :: rest) s ↔
    (b.Ready → ¬ (ingestBatchFromR2 plan b.relay b.batchCode b.manifestSha256).Returns s →
      (afterEach plan (b :: rest) s).acknowledged =
        ((ingestBatchFromR2 plan b.relay b.batchCode b.manifestSha256).after s).acknowledged) ∧
    RejectedLast plan rest (afterEach plan [b] s) := by
  constructor
  · intro h
    constructor
    · intro hready hraises
      have hrest := h [] b rest rfl hready hraises
      rw [afterEach_ready hready]
      exact hrest
    · intro before c after hrest hready
      have hlater := h (b :: before) c after (by rw [hrest, List.cons_append]) hready
      have hsplit := @afterEach_append plan [b] before s
      rw [List.singleton_append] at hsplit
      rw [hsplit] at hlater
      exact hlater
  · rintro ⟨hhead, hrest⟩ before c after hsplit hready
    cases before with
    | nil =>
      cases hsplit
      intro t t' hraises
      have hsame := hhead hready hraises
      rw [afterEach_ready hready] at hsame
      exact hsame
    | cons _ before =>
      cases hsplit
      have hlater := hrest before c after rfl hready
      rw [← afterEach_append, List.singleton_append] at hlater
      exact hlater

theorem rejectedLast_of_none (h : (afterEach plan batches s).acknowledged = s.acknowledged) :
    RejectedLast plan batches s := by
  rintro before b rest rfl hready t t' -
  have hbefore : s.acknowledged <+: t.acknowledged := acknowledged_afterEach before s
  have hstep : t.acknowledged <+: t'.acknowledged := acknowledged_ingestBatchFromR2 _ _ _ t
  have hrest : t'.acknowledged <+: (afterEach plan rest t').acknowledged :=
    acknowledged_afterEach rest t'
  rw [afterEach_append, afterEach_ready hready] at h
  have hlength := (hbefore.trans hstep).length_le
  rw [← h] at hlength
  exact (hrest.eq_of_length_le hlength).symm

/-- A pass acknowledges what it would if it went on after a batch that raises, unless a batch is
accepted behind one that is rejected. -/
theorem acknowledged_ingestEach : ((ingestEach plan batches done).after s).acknowledged =
    (afterEach plan batches s).acknowledged ↔ RejectedLast plan batches s := by
  induction batches generalizing s done with
  | nil =>
    constructor
    · intro _ before b rest h
      simp at h
    · intro _
      rfl
  | cons b rest ih =>
    rw [rejectedLast_cons]
    by_cases hready : b.Ready
    · have hsingle := @afterEach_ready plan [] b s hready
      rw [after_ingestEach_ready hready, afterEach_ready hready, hsingle, afterEach]
      unfold Method.Returns Method.after
      rcases hcall : (ingestBatchFromR2 plan b.relay b.batchCode b.manifestSha256).call s with
        ⟨⟨e⟩ | ⟨batch⟩, t⟩
      · dsimp only
        constructor
        · intro hsame
          exact ⟨fun _ _ => hsame.symm, rejectedLast_of_none hsame.symm⟩
        · rintro ⟨hhead, -⟩
          exact (hhead hready nofun).symm
      · dsimp only
        constructor
        · intro hsame
          exact ⟨fun _ hraises => (hraises ⟨batch, rfl⟩).elim, ih.mp hsame⟩
        · rintro ⟨-, hrest⟩
          exact ih.mpr hrest
    · obtain ⟨done', hafter⟩ := @after_ingestEach_other plan rest b s done hready
      rw [hafter, afterEach_other hready, afterEach_other hready, afterEach]
      constructor
      · intro hsame
        exact ⟨fun h => (hready h).elim, ih.mp hsame⟩
      · rintro ⟨-, hrest⟩
        exact ih.mpr hrest

end Pass

end TradingLab.Factory
