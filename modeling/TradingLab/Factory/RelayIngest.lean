import TradingLab.Factory.BundleLaw
import TradingLab.Factory.RelayLaw

/-!
# Ingests that are refused

A relay that serves a produced batch lets it in. One artifact that is served wrong
stays in the root under the name of the right one, and keeps the batch out from
then on; and a batch that is refused ends the polling pass.
-/

namespace TradingLab.Factory

open List

theorem artifactKey_injective {plan : Plan} {code candidateId candidateId' sha sha' : String}
    (hsha : Sha256.isHexDigest sha = true) (hsha' : Sha256.isHexDigest sha' = true)
    (h : artifactKey plan code candidateId sha = artifactKey plan code candidateId' sha') :
    candidateId = candidateId' := by
  have hchars := congrArg String.toList h
  unfold artifactKey at hchars
  simp only [String.toList_append, append_assoc, append_cancel_left_eq] at hchars
  apply String.toList_inj.mp
  apply (append_inj' hchars ?_).1
  simp only [length_append, length_of_isHexDigest hsha, length_of_isHexDigest hsha']

/-- A candidate's name does not begin like that of a manifest. -/
theorem manifestKey_ne_artifactKey {plan : FrozenPlan} {code sha sha' : String} {frozen : PlanBatch}
    {row : PlanCandidate} (hbatch : batch plan.toPlan code = .ok frozen)
    (hrow : row ∈ frozen.candidates) :
    manifestKey plan.toPlan code sha ≠ artifactKey plan.toPlan code row.candidateId sha' := by
  obtain ⟨ordinal, hname⟩ := plan.generated frozen (batch_eq hbatch).1 row hrow
  intro h
  have hchars := congrArg String.toList h
  unfold manifestKey artifactKey at hchars
  rw [hname] at hchars
  unfold candidateName at hchars
  have hlead : "/batch-manifest-".toList = '/' :: 'b' :: "atch-manifest-".toList := by decide
  have hcandidate : "MCF-PROD-001-".toList = 'M' :: "CF-PROD-001-".toList := by decide
  have hslash : "/".toList = ['/'] := by decide
  simp only [String.toList_append, String.toList_ofList, append_assoc,
    append_cancel_left_eq, hlead, hcandidate, hslash, cons_append, nil_append] at hchars
  injection hchars with _ hchars
  rw [append_cancel_left_eq] at hchars
  injection hchars with _ hchars
  injection hchars with hletter
  exact absurd hletter (by decide)

namespace UploadedBatch

/-- A relay that serves the manifest, and a text for each candidate. -/
def relay {plan : FrozenPlan} (own : UploadedBatch plan) (manifestText : List Char)
    (text : PlanCandidate → List Char) : Relay where
  object key :=
    if key = manifestKey plan.toPlan own.code own.sha then .served { raw := manifestText }
    else
      match own.frozen.candidates.find? fun row =>
          artifactKey plan.toPlan own.code row.candidateId (own.results.artifactSha row) = key with
      | some row => .served { raw := text row }
      | none => .rejected 404
  acknowledge _ _ := .ok "BATCH_INGESTED"

variable {plan : FrozenPlan} {own : UploadedBatch plan} {manifestText : List Char}
  {text : PlanCandidate → List Char} {row : PlanCandidate}

theorem getObject_served {relay : Relay} {key sha : String} {raw : List Char}
    (h : relay.object key = .served { raw := raw }) (hsize : byteLength raw ≤ maxDownloadBytes) :
    relay._getObject key sha = .ok raw := by
  have hsilent : ∀ sha, ¬ Contradicts none sha := by
    rintro sha ⟨header, hheader, -⟩
    cases hheader
  unfold Relay._getObject
  rw [h]
  dsimp only
  rw [raiseIf_neg (not_lt.mpr hsize), ok_bind, raiseIf_neg (hsilent _), ok_bind,
    raiseIf_neg (hsilent _)]
  rfl

theorem isHexDigest_sha (own : UploadedBatch plan) (hrow : row ∈ own.frozen.candidates) :
    Sha256.isHexDigest (own.results.artifactSha row) = true := by
  obtain ⟨file, hsent⟩ := own.sent row hrow
  obtain ⟨document, hstored, hsha⟩ := hsent.stored
  rw [← hsha]
  exact isHexDigest_of_digestText hstored.valid.artifact.1

theorem object_relay_manifest : (own.relay manifestText text).object
    (manifestKey plan.toPlan own.code own.sha) = .served { raw := manifestText } := if_pos rfl

theorem object_relay (hrow : row ∈ own.frozen.candidates) : (own.relay manifestText text).object
    (artifactKey plan.toPlan own.code row.candidateId (own.results.artifactSha row)) =
      .served { raw := text row } := by
  have hne : manifestKey plan.toPlan own.code own.sha ≠
      artifactKey plan.toPlan own.code row.candidateId (own.results.artifactSha row) :=
    manifestKey_ne_artifactKey own.listed hrow
  have hfind : (own.frozen.candidates.find? fun other =>
      artifactKey plan.toPlan own.code other.candidateId (own.results.artifactSha other) =
        artifactKey plan.toPlan own.code row.candidateId (own.results.artifactSha row)) =
      some row := by
    cases hfound : own.frozen.candidates.find? fun other =>
        artifactKey plan.toPlan own.code other.candidateId (own.results.artifactSha other) =
          artifactKey plan.toPlan own.code row.candidateId (own.results.artifactSha row) with
    | none =>
      have hnone := find?_eq_none.mp hfound row hrow
      simp at hnone
    | some other =>
      have hother := mem_of_find?_eq_some hfound
      have hkey := find?_some hfound
      rw [decide_eq_true_eq] at hkey
      have hid := artifactKey_injective (own.isHexDigest_sha hother) (own.isHexDigest_sha hrow) hkey
      rw [inj_on_of_nodup_map (nodup_candidateIds own.listed) hother hrow hid]
  unfold UploadedBatch.relay
  dsimp only
  rw [if_neg hne.symm, hfind]

theorem served_relay (hmanifest : canonicalText (.object own.manifest) = .ok manifestText)
    (hsize : byteLength manifestText ≤ maxDownloadBytes)
    (htext : ∀ row ∈ own.frozen.candidates, byteLength (text row) ≤ maxDownloadBytes ∧
      ∀ file, SentArtifact plan.toPlan own.code own.results.artifactSha own.sender row file →
        file.text = text row) : own.Served (own.relay manifestText text) where
  manifest := ⟨manifestText, hmanifest, getObject_served object_relay_manifest hsize⟩
  artifacts := by
    intro row hrow file hsent
    rw [(htext row hrow).2 file hsent]
    exact getObject_served (object_relay hrow) (htext row hrow).1
  acknowledged := rfl

/-- A produced batch, as it is uploaded. -/
def ofProduced {code : String} {frozen : PlanBatch} (hbatch : batch plan.toPlan code = .ok frozen)
    {document : PlanCandidate → JsonMembers} {git runner node : String}
    (h : Produced plan.toPlan code frozen.candidates document git runner node) :
    UploadedBatch plan where
  code := code
  frozen := frozen
  listed := hbatch
  sender := rootOf hbatch document
  results := producedResults frozen.candidates document git runner
  built := buildBatchManifest_rootOf hbatch h
  verified := verifyBatchManifest_rootOf hbatch h
  sent := by
    intro row hrow
    have hsha := artifactSha_produced hbatch h hrow
    exact ⟨artifactFile code document row, by rw [hsha]; rfl, document row,
      stored_rootOf hbatch h hrow, hsha.symm⟩

theorem text_ofProduced {code : String} {frozen : PlanBatch}
    (hbatch : batch plan.toPlan code = .ok frozen) {document : PlanCandidate → JsonMembers}
    {git runner node : String}
    (h : Produced plan.toPlan code frozen.candidates document git runner node)
    (hrow : row ∈ frozen.candidates) {file : File}
    (hsent : SentArtifact plan.toPlan code
      (producedResults frozen.candidates document git runner).artifactSha (rootOf hbatch document)
      row file) : file = artifactFile code document row := by
  obtain ⟨_, hstored, -⟩ := hsent.stored
  have honly := hstored.only
  rw [(stored_rootOf hbatch h hrow).only] at honly
  exact (singleton_inj.mp honly).symm

end UploadedBatch

/-- The relay serves something else under a key. -/
def Relay.spoilt (relay : Relay) (key : String) (raw : List Char) : Relay :=
  { relay with object := fun k => if k = key then .served { raw := raw } else relay.object k }

/-- A text that is no result of the candidate. -/
def NoResult (plan : Plan) (code : String) (row : PlanCandidate) (raw : List Char) : Prop :=
  ∀ document, readMapping raw = .ok document → ¬ ValidDocument plan code row.expected raw document

theorem noResult_empty (plan : Plan) (code : String) (row : PlanCandidate) :
    NoResult plan code row "{}".toList := by
  intro document hread hvalid
  have hempty : readMapping "{}".toList = .ok .nil := by decide
  rw [hempty] at hread
  cases hread
  have hschema := hvalid.schema
  cases hschema

theorem not_identified_empty (path : List String) : ¬ Identified ⟨path, "{}".toList⟩ := by
  rintro ⟨document, sha, hread, -, -, hsha, -⟩
  have hempty : readMapping "{}".toList = .ok .nil := by decide
  rw [hempty] at hread
  cases hread
  cases hsha

namespace UploadedBatch
variable {plan : FrozenPlan} {own : UploadedBatch plan} {relay : Relay} {row : PlanCandidate}
  {raw : List Char} {files : Files}

/-- The key of a candidate's artifact. -/
def keyOf (own : UploadedBatch plan) (row : PlanCandidate) : String :=
  artifactKey plan.toPlan own.code row.candidateId (own.results.artifactSha row)

/-- The path of a candidate's artifact. -/
def pathOf (own : UploadedBatch plan) (row : PlanCandidate) : List String :=
  resultFile own.code row (own.results.artifactSha row)

section
variable (h : own.Served relay) (hrow : row ∈ own.frozen.candidates)
include h hrow

theorem downloadManifest_spoilt :
    (relay.spoilt (own.keyOf row) raw).downloadManifest plan.toPlan own.code own.sha =
      .ok own.manifest := by
  have hne : manifestKey plan.toPlan own.code own.sha ≠
      artifactKey plan.toPlan own.code row.candidateId (own.results.artifactSha row) :=
    manifestKey_ne_artifactKey own.listed hrow
  have hobject : (relay.spoilt (own.keyOf row) raw).object (manifestKey plan.toPlan own.code own.sha) =
      relay.object (manifestKey plan.toPlan own.code own.sha) := if_neg hne
  have hsame := h.downloadManifest
  unfold Relay.downloadManifest Relay._getObject at hsame ⊢
  rw [hobject]
  exact hsame

omit h in
theorem downloadArtifact_spoilt (hsize : byteLength raw ≤ maxDownloadBytes) :
    (relay.spoilt (own.keyOf row) raw).downloadArtifact plan.toPlan own.code
      (artifactEntry own.results.artifactSha row) = .ok ⟨own.pathOf row, raw⟩ := by
  have hobject : (relay.spoilt (own.keyOf row) raw).object (own.keyOf row) =
      .served { raw := raw } := if_pos rfl
  have hserved : (relay.spoilt (own.keyOf row) raw)._getObject (own.keyOf row)
      (own.results.artifactSha row) = .ok raw := getObject_served hobject hsize
  have hid : rowField (artifactEntry own.results.artifactSha row) "candidate_id" = row.candidateId := by
    rw [rowField_artifactEntry]
    rfl
  unfold keyOf at hserved
  unfold Relay.downloadArtifact keyOf
  rw [rowSha_artifactEntry, hid, hserved, ok_bind,
    artifactPath_artifactEntry own.listed hrow (own.isHexDigest_sha hrow)]
  rfl

variable (hsize : byteLength raw ≤ maxDownloadBytes) (hraw : NoResult plan.toPlan own.code row raw)
include hsize hraw

theorem spoilt_raises (acknowledged : List String) :
    ¬ (ingestBatchFromR2 plan.toPlan (relay.spoilt (own.keyOf row) raw) own.code own.sha).Returns
      ⟨files, acknowledged⟩ := by
  rintro ⟨ingested, hingested⟩
  obtain ⟨files', hstored, hverify, -⟩ :=
    Relay.reconciled_of_returns (downloadManifest_spoilt h hrow) (Prod.ext hingested rfl)
  obtain ⟨kept, document, hkept⟩ := stored_of_verified hverify hrow
  have hspoilt : ⟨own.pathOf row, raw⟩ ∈ files'.rows := by
    apply Relay.stored_of_returns hstored _ (downloadArtifact_spoilt hrow hsize)
    rw [own.manifestRows_eq]
    exact mem_map_of_mem hrow
  have hmem := mem_globResults.mpr ⟨hspoilt, resultFile_dropLast _ row _,
    isResultName_resultFile own.code row _⟩
  rw [hkept.only, mem_singleton] at hmem
  subst hmem
  exact hraw document hkept.read hkept.valid

end

theorem clean_empty (own : UploadedBatch plan) : own.Clean Table.empty := by
  intro file hfile
  cases hfile

/-- The artifact of the first candidate is served as an empty document. -/
theorem spoilt_first (h : own.Served relay) {rest : List PlanCandidate}
    (hfirst : own.frozen.candidates = row :: rest) : ∃ e s',
    (ingestBatchFromR2 plan.toPlan (relay.spoilt (own.keyOf row) "{}".toList) own.code own.sha).call
      ⟨Table.empty, []⟩ = (.error e, s') ∧ ⟨own.pathOf row, "{}".toList⟩ ∈ s'.results.rows := by
  have hrow : row ∈ own.frozen.candidates := by
    rw [hfirst]
    exact mem_cons_self
  have hsize : byteLength "{}".toList ≤ maxDownloadBytes := by decide
  have hraises : ¬ (ingestBatchFromR2 plan.toPlan (relay.spoilt (own.keyOf row) "{}".toList)
      own.code own.sha).Returns ⟨Table.empty, []⟩ :=
    spoilt_raises h hrow hsize (noResult_empty plan.toPlan own.code row) []
  have hoffered : ⟨own.pathOf row, "{}".toList⟩ ∈ (relay.spoilt (own.keyOf row) "{}".toList).offered
      plan.toPlan own.code own.sha Table.empty := by
    unfold Relay.offered
    rw [downloadManifest_spoilt h hrow]
    dsimp only
    rw [own.manifestRows_eq, hfirst, map_cons, Relay.newArtifacts,
      downloadArtifact_spoilt hrow hsize]
    exact mem_cons_self
  rcases hcall : (ingestBatchFromR2 plan.toPlan (relay.spoilt (own.keyOf row) "{}".toList) own.code
      own.sha).call ⟨Table.empty, []⟩ with ⟨⟨e⟩ | ⟨ingested⟩, s'⟩
  · refine ⟨e, s', rfl, ?_⟩
    have hmem := (Relay.mem_ingestBatchFromR2 ⟨Table.empty, []⟩).mpr (.inr hoffered)
    rw [hcall] at hmem
    exact hmem
  · exact (hraises ⟨ingested, congrArg Prod.fst hcall⟩).elim

theorem not_ingestable_of_empty (h : own.Served relay) (hrow : row ∈ own.frozen.candidates)
    (hempty : ⟨own.pathOf row, "{}".toList⟩ ∈ files.rows) : ¬ own.Ingestable files := by
  intro hingestable
  have hmeets : own.Meets ⟨own.pathOf row, "{}".toList⟩ :=
    ⟨row, hrow, resultFile_dropLast _ row _, isResultName_resultFile own.code row _⟩
  have hholds := (ingestable_iff h).mp hingestable _ hempty hmeets
  exact not_identified_empty _ hholds.identified

/-- The first of two listed batches is refused, and the second one is served. -/
theorem refused_first (h : own.Served relay) (code sha : String) :
    let refused : ListedBatch := ⟨code, "AWAITING_INGEST", some "R2", sha,
      ⟨fun _ => .rejected 404, relay.acknowledge⟩⟩
    let accepted : ListedBatch := ⟨own.code, "AWAITING_INGEST", some "R2", own.sha, relay⟩
    ((ingestReadyBatchesOnce plan.toPlan (.ok [refused, accepted])).after
        ⟨Table.empty, []⟩).acknowledged = [] ∧
      (afterEach plan.toPlan [refused, accepted] ⟨Table.empty, []⟩).acknowledged = [own.code] := by
  intro refused accepted
  have hrefused : refused.Ready := ⟨rfl, rfl⟩
  have haccepted : accepted.Ready := ⟨rfl, rfl⟩
  have hcall : (ingestBatchFromR2 plan.toPlan refused.relay refused.batchCode
      refused.manifestSha256).call ⟨Table.empty, []⟩ =
        (.error (.mcf ("R2 ingest download rejected: HTTP " ++ toString 404)), ⟨Table.empty, []⟩) := rfl
  obtain ⟨ingested, hingested⟩ := h.returns_of_clean (clean_empty own) []
  obtain ⟨-, -, -, hacknowledged⟩ :=
    Relay.reconciled_of_returns h.downloadManifest (Prod.ext hingested rfl)
  constructor
  · change ((ingestEach plan.toPlan [refused, accepted] ⟨[], []⟩).after
      ⟨Table.empty, []⟩).acknowledged = []
    rw [after_ingestEach_ready hrefused, hcall]
  · rw [afterEach_ready hrefused, Method.after, hcall, afterEach_ready haccepted]
    exact hacknowledged

end UploadedBatch

section Sample

theorem isNode_sample : isNode "NODE-A1" = true := by decide

def sampleUpload : UploadedBatch sampleFrozenPlan :=
  .ofProduced batch_sample (produced_sample isNode_sample shortFamily)

theorem canonicalText_sampleUpload : ∃ text,
    canonicalText (.object sampleUpload.manifest) = .ok text ∧ byteLength text ≤ maxDownloadBytes := by
  have hheader := canonicalText_eq_ok.mp (canonicalText_producedHeader batch_sample
    (sampleDocument "NODE-A1" shortFamily) sampleGit sampleRunner)
  have hfield : (producedHeader sampleFrozenPlan.toPlan "B001" sampleBatch
      (sampleDocument "NODE-A1" shortFamily) sampleGit sampleRunner).lookup "manifest" =
        some (.object sampleUpload.manifest) := by
    unfold producedHeader
    rw [lookup_bundleHeader]
    rfl
  have hlong := Json.hasLongInteger_of_lookup hheader.2.1 hfield
  have hfinite : (Json.object sampleUpload.manifest).hasNonFinite = false :=
    Json.membersHaveNonFinite_insert rfl _ (hasNonFinite_manifestBase _ _ _)
  have hheld : sampleUpload.manifest.Held := held_batchManifest _ _ _
  have hbytes : membersBytes sampleUpload.manifest ≤ 1500000 :=
    membersBytes_sampleManifest isNode_sample shortFamily (by decide)
  have hsize := (byteLength_object sampleUpload.manifest).1
  have hend : byteLength ['\n'] = 1 := by decide
  have hnormal : (Json.object sampleUpload.manifest).normal = Json.object sampleUpload.manifest :=
    Json.Held.normal (v := .object _) hheld
  refine ⟨_, canonicalText_eq_ok.mpr ⟨hfinite, hlong, rfl⟩, ?_⟩
  rw [hnormal, Json.canonical, byteLength_append, hend]
  unfold maxDownloadBytes
  omega

theorem served_sample : ∃ relay, sampleUpload.Served relay := by
  obtain ⟨text, htext, hsize⟩ := canonicalText_sampleUpload
  refine ⟨sampleUpload.relay text fun row =>
    artifactText (sampleDocument "NODE-A1" shortFamily row),
    UploadedBatch.served_relay htext hsize ?_⟩
  intro row hrow
  constructor
  · have hdocument := byteLength_sampleDocument hrow (show "NODE-A1".toList.length ≤ 64 by decide)
      shortFamily
    have hchars := byteLength_plainStrChars (shortFamily row)
    have hname : (shortFamily row).toList.length ≤ 5 := by
      exact (show "TREND".toList.length ≤ 5 by decide)
    unfold maxDownloadBytes
    omega
  · intro file hsent
    rw [UploadedBatch.text_ofProduced batch_sample (produced_sample isNode_sample shortFamily) hrow
      hsent]
    rfl

theorem candidates_sampleUpload : ∃ rest,
    sampleUpload.frozen.candidates = sampleCandidate 0 :: rest := by
  have hbatch : sampleUpload.frozen = sampleBatch := rfl
  have hsize : logicalBatchSize = (logicalBatchSize - 1) + 1 := by decide
  have hcount : expectedExecutableCount = (expectedExecutableCount - 1) + 1 := by decide
  rw [hbatch, sampleBatch, candidates_batchOf, sampleRows, hcount, range_succ_eq_map, hsize,
    map_cons, take_succ_cons]
  exact ⟨_, rfl⟩

end Sample

/-- A call that raises leaves the root unspoilt exactly when every artifact it was offered is the
batch's own, or says what it is named for and is no result of the batch's candidates. A polling
pass acknowledges what it would if it went on exactly when no batch is accepted behind a
rejected one. -/
theorem r2_ingest_law (plan : FrozenPlan) :
    (∀ (own : UploadedBatch plan) (other relay : Relay) (code sha : String) (s s' : RelaySite)
        (e : Failure), own.Served other → own.Ingestable s.results →
      (ingestBatchFromR2 plan.toPlan relay code sha).call s = (.error e, s') →
        (own.Unspoilt s.results s'.results ↔
          ∀ file ∈ relay.offered plan.toPlan code sha s.results,
            own.Holds file ∨ Identified file ∧ ¬ own.Meets file)) ∧
    ∀ (batches : List ListedBatch) (s : RelaySite),
      ((ingestReadyBatchesOnce plan.toPlan (.ok batches)).after s).acknowledged =
          (afterEach plan.toPlan batches s).acknowledged ↔
        RejectedLast plan.toPlan batches s := by
  constructor
  · intro own other relay code sha s s' e hserved hbefore hraises
    have h := @UploadedBatch.unspoilt_iff _ own relay code sha s other hserved hbefore
    rw [hraises] at h
    exact h
  · intro batches s
    exact acknowledged_ingestEach

/-- The spoilt artifact of the sample. -/
theorem r2_ingest_law_sample : ∃ relay, sampleUpload.Served relay ∧ ∃ e s',
    (ingestBatchFromR2 sampleFrozenPlan.toPlan
      (relay.spoilt (sampleUpload.keyOf (sampleCandidate 0)) "{}".toList) sampleUpload.code
      sampleUpload.sha).call ⟨Table.empty, []⟩ = (.error e, s') ∧
    (sampleUpload.Unspoilt Table.empty s'.results ↔
      ∀ file ∈ (relay.spoilt (sampleUpload.keyOf (sampleCandidate 0)) "{}".toList).offered
          sampleFrozenPlan.toPlan sampleUpload.code sampleUpload.sha Table.empty,
        sampleUpload.Holds file ∨ Identified file ∧ ¬ sampleUpload.Meets file) := by
  obtain ⟨relay, hserved⟩ := served_sample
  obtain ⟨rest, hfirst⟩ := candidates_sampleUpload
  have hbefore : sampleUpload.Ingestable Table.empty :=
    (UploadedBatch.ingestable_iff hserved).mpr sampleUpload.clean_empty
  obtain ⟨e, s', hraises, -⟩ := UploadedBatch.spoilt_first hserved hfirst
  exact ⟨relay, hserved, e, s', hraises, (r2_ingest_law sampleFrozenPlan).1 sampleUpload relay _ _ _ _
    s' e hserved hbefore hraises⟩

/-- One artifact that is served wrong stays, and keeps the batch out; and a batch that is refused
keeps out the one that is listed behind it. -/
theorem refused_content_stays : ∃ relay, sampleUpload.Served relay ∧
    sampleUpload.Ingestable Table.empty ∧
    (∃ e s', (ingestBatchFromR2 sampleFrozenPlan.toPlan
        (relay.spoilt (sampleUpload.keyOf (sampleCandidate 0)) "{}".toList) sampleUpload.code
        sampleUpload.sha).call ⟨Table.empty, []⟩ = (.error e, s') ∧
      (∃ file ∈ s'.results.rows, ¬ Identified file) ∧ ¬ sampleUpload.Ingestable s'.results) ∧
    let refused : ListedBatch := ⟨"B002", "AWAITING_INGEST", some "R2", sampleUpload.sha,
      ⟨fun _ => .rejected 404, relay.acknowledge⟩⟩
    let accepted : ListedBatch :=
      ⟨sampleUpload.code, "AWAITING_INGEST", some "R2", sampleUpload.sha, relay⟩
    ((ingestReadyBatchesOnce sampleFrozenPlan.toPlan (.ok [refused, accepted])).after
        ⟨Table.empty, []⟩).acknowledged = [] ∧
      (afterEach sampleFrozenPlan.toPlan [refused, accepted] ⟨Table.empty, []⟩).acknowledged =
        [sampleUpload.code] := by
  obtain ⟨relay, hserved⟩ := served_sample
  obtain ⟨rest, hfirst⟩ := candidates_sampleUpload
  have hrow : sampleCandidate 0 ∈ sampleUpload.frozen.candidates := by
    rw [hfirst]
    exact List.mem_cons_self
  have hbefore : sampleUpload.Ingestable Table.empty :=
    (UploadedBatch.ingestable_iff hserved).mpr sampleUpload.clean_empty
  obtain ⟨e, s', hraises, hstays⟩ := UploadedBatch.spoilt_first hserved hfirst
  exact ⟨relay, hserved, hbefore, ⟨e, s', hraises, ⟨_, hstays, not_identified_empty _⟩,
    UploadedBatch.not_ingestable_of_empty hserved hrow hstays⟩,
    UploadedBatch.refused_first hserved "B002" sampleUpload.sha⟩

end TradingLab.Factory
