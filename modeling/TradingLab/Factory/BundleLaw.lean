import TradingLab.Factory.CompleteRoot
import TradingLab.Factory.ResultLaw

/-!
# The law of transfer bundles

A bundle that was built is taken in, with the sender's files as they are, exactly
when its header and every artifact line keep the bounds of the receiver. A batch
with one long result shows that the sender builds more than that.
-/

namespace TradingLab.Factory

open List Json

/-- A compact result whose family has a given name. -/
def familyBody (familyId : PlanCandidate → String) (row : PlanCandidate) : JsonMembers :=
  (sampleBody row).insert "family_id" (.str (familyId row))

theorem lookup_familyBody (familyId : PlanCandidate → String) (row : PlanCandidate) (key : String) :
    (familyBody familyId row).lookup key =
      if key = "family_id" then some (.str (familyId row)) else (sampleBody row).lookup key :=
  JsonMembers.lookup_insert _ _ _ _

theorem projectedBody_family (familyId : PlanCandidate → String) (row : PlanCandidate) :
    ProjectedBody (familyBody familyId row) where
  finite := Json.membersHaveNonFinite_insert rfl _ (finite_sampleBody row)
  short := Json.membersHaveLongInteger_insert rfl _ (short_sampleBody row)
  unsealed := by
    rw [lookup_familyBody, if_neg (by decide), (projectedBody_sample row).unsealed]
  schema := by
    rw [lookup_familyBody, if_neg (by decide), (projectedBody_sample row).schema]
  omitted := by
    rw [lookup_familyBody, if_neg (by decide), (projectedBody_sample row).omitted]
  light := by
    intro name hname
    have hne : name ≠ "family_id" := by
      rintro rfl
      revert hname
      decide
    rw [lookup_familyBody, if_neg hne, (projectedBody_sample row).light name hname]
  source := by
    rw [lookup_familyBody, if_neg (by decide), (projectedBody_sample row).source]
  complete := by
    intro name hname
    rw [lookup_familyBody]
    split
    · rfl
    · exact (projectedBody_sample row).complete name hname
  daily := by
    rw [lookup_familyBody, if_neg (by decide)]
    exact (projectedBody_sample row).daily

def sampleGit : String := String.ofList (List.replicate 40 'a')
def sampleRunner : String := String.ofList (List.replicate 64 'a')

/-- The documents that a node writes for the sample batch. -/
def sampleDocument (node : String) (familyId : PlanCandidate → String) : PlanCandidate → JsonMembers :=
  producedDocument sampleFrozenPlan.toPlan "B001" sampleGit sampleRunner node fun row =>
    sealResult (familyBody familyId row)

theorem produced_sample {node : String} (hnode : isNode node = true)
    (familyId : PlanCandidate → String) : Produced sampleFrozenPlan.toPlan "B001"
      sampleBatch.candidates (sampleDocument node familyId) sampleGit sampleRunner node := by
  apply produced_of_projected batch_sample (by decide) (by decide) hnode
  intro row _
  refine ⟨(held_sampleBody row).insert_str _, projectedBody_family familyId row, ?_, ?_⟩
  · rw [lookup_familyBody, if_neg (by decide)]
    rfl
  · rw [lookup_familyBody, if_neg (by decide)]
    rfl

theorem length_of_isHexDigest {s : String} (h : Sha256.isHexDigest s = true) :
    s.toList.length = 64 := by
  unfold Sha256.isHexDigest at h
  rw [Bool.and_eq_true, beq_iff_eq] at h
  exact h.1

theorem isHexDigest_planSha256 (plan : Plan) : Sha256.isHexDigest plan.planSha256 = true := by
  have hvalid := plan.valid
  unfold Plan.Fields.validate at hvalid
  rw [raiseIf_bind_eq_ok] at hvalid
  have hboundary := hvalid.1
  simp only [not_or, not_not] at hboundary
  have hdigest := hboundary.2.2.2.2.2.2.2.2
  rw [← hdigest]
  exact isHexDigest_digest _

variable {row : PlanCandidate} {sha : PlanCandidate → String}

theorem sampleRow_texts (h : row ∈ sampleBatch.candidates) :
    row.candidateId.toList.length ≤ 64 ∧ row.candidateSpecSha256.toList.length ≤ 64 := by
  rw [sampleBatch, candidates_batchOf] at h
  have hrow := mem_of_mem_take h
  obtain ⟨n, -, hn⟩ := mem_map.mp hrow
  subst hn
  have hid : (sampleCandidate n).candidateId.toList.length = 19 := by
    unfold sampleCandidate
    simp only [String.toList_ofList, length_append, length_fixedDigits]
    rfl
  have hspec : (sampleCandidate n).candidateSpecSha256.toList.length = 64 := by
    unfold sampleCandidate
    simp only [String.toList_ofList, length_replicate]
  omega

/-- All but the name of the family is short. -/
theorem membersBytes_sampleBody (hrow : row ∈ sampleBatch.candidates) :
    membersBytes (sampleBody row) ≤ 20000 := by
  obtain ⟨hid, hspec⟩ := sampleRow_texts hrow
  have hnull : ∀ (names : List String) (ms : JsonMembers) (n : ℕ), membersBytes ms ≤ n →
      (∀ name ∈ names, name.toList.length ≤ 64) →
      membersBytes (names.foldl (fun ms name => ms.insert name .null) ms) ≤ n + names.length * 392 := by
    intro names
    induction names with
    | nil => exact fun ms n hms _ => hms
    | cons name names ih =>
      intro ms n hms hnames
      have hfirst := membersBytes_insert_le hms (hnames name mem_cons_self)
        (show byteLength null.plainText ≤ 4 by decide)
      have hrest := ih _ _ hfirst fun other hother => hnames other (mem_cons_of_mem _ hother)
      rw [foldl_cons, length_cons, Nat.add_mul]
      omega
  have hbase := hnull requiredAdjudicationFields .nil 0 le_rfl (by decide)
  have homitted := @byteLength_list 386 (omittedFields.map .str) (by
    intro v hv
    obtain ⟨name, hname, rfl⟩ := mem_map.mp hv
    have hlengths : ∀ n ∈ omittedFields, n.toList.length ≤ 64 := by decide
    exact byteLength_short (hlengths name hname))
  have hdaily : byteLength sampleDaily.plainText ≤ 200 := by decide
  have hsource : (String.ofList (replicate 64 'e')).toList.length ≤ 64 := by
    rw [String.toList_ofList, length_replicate]
  have h := membersBytes_insert_short hbase (show "candidate_id".toList.length ≤ 64 by decide) hid
  have h := membersBytes_insert_short h (show "candidate_spec_sha256".toList.length ≤ 64 by decide) hspec
  have h := membersBytes_insert_le h (show "daily_return_series".toList.length ≤ 64 by decide) hdaily
  have h := membersBytes_insert_short h (show "projection_schema".toList.length ≤ 64 by decide)
    (show projectionSchema.toList.length ≤ 64 by decide)
  have h := membersBytes_insert_short h
    (show "source_full_result_sha256".toList.length ≤ 64 by decide) hsource
  have h := membersBytes_insert_le h
    (show "projection_omitted_fields".toList.length ≤ 64 by decide) homitted
  exact h.trans (by decide)

theorem held_sampleDocument (row : PlanCandidate) (node : String)
    (familyId : PlanCandidate → String) : (Json.object (sampleDocument node familyId row)).Held := by
  have hbody : (familyBody familyId row).Held := (held_sampleBody row).insert_str _
  have hresult : (sealResult (familyBody familyId row)).Held := hbody.insert_str _
  exact ((held_resultIdentity _ _ _ _ _ hresult).insert_str _).insert_str _

/-- A stored sample is as long as the name of its family, and a little more. -/
theorem byteLength_sampleDocument (hrow : row ∈ sampleBatch.candidates)
    {node : String} (hnode : node.toList.length ≤ 64) (familyId : PlanCandidate → String) :
    byteLength (artifactText (sampleDocument node familyId row)) ≤
      byteLength (Json.plainStrChars (familyId row)) + 40000 := by
  obtain ⟨hid, hspec⟩ := sampleRow_texts hrow
  have hplan : sampleFrozenPlan.planSha256.toList.length ≤ 64 :=
    (length_of_isHexDigest (isHexDigest_planSha256 _)).le
  have hdigest : ∀ v : Json, v.digest.toList.length ≤ 64 := fun v =>
    (length_of_isHexDigest (isHexDigest_digest v)).le
  have hgit : sampleGit.toList.length ≤ 64 := by decide
  have hrunner : sampleRunner.toList.length ≤ 64 := by decide
  have hfamily : membersBytes (familyBody familyId row) ≤
      20000 + (byteLength (plainStrChars (familyId row)) + 388) :=
    membersBytes_insert_le (membersBytes_sampleBody hrow) (by decide) le_rfl
  have hresult : membersBytes (sealResult (familyBody familyId row)) ≤ _ :=
    membersBytes_insert_short hfamily (by decide) (hdigest _)
  have hobject := (byteLength_object (sealResult (familyBody familyId row))).1
  have hnil : membersBytes .nil ≤ 0 := le_rfl
  have h := membersBytes_insert_short hnil (show "schema".toList.length ≤ 64 by decide)
    (show resultSchema.toList.length ≤ 64 by decide)
  have h := membersBytes_insert_short h (show "generation_id".toList.length ≤ 64 by decide)
    (show generationId.toList.length ≤ 64 by decide)
  have h := membersBytes_insert_short h (show "plan_sha256".toList.length ≤ 64 by decide) hplan
  have h := membersBytes_insert_short h (show "batch_code".toList.length ≤ 64 by decide)
    (show "B001".toList.length ≤ 64 by decide)
  have h := membersBytes_insert_short h (show "candidate_id".toList.length ≤ 64 by decide) hid
  have h := membersBytes_insert_short h (show "candidate_spec_sha256".toList.length ≤ 64 by decide) hspec
  have h := membersBytes_insert_short h (show "git_sha".toList.length ≤ 64 by decide) hgit
  have h := membersBytes_insert_short h (show "runner_input_sha256".toList.length ≤ 64 by decide) hrunner
  have h := membersBytes_insert_le h (show "result".toList.length ≤ 64 by decide) hobject
  have h := membersBytes_insert_short h (show "producer_node_id".toList.length ≤ 64 by decide) hnode
  have h := membersBytes_insert_short h (show "result_artifact_sha256".toList.length ≤ 64 by decide)
    (hdigest (object (producedIdentity sampleFrozenPlan.toPlan "B001" sampleGit sampleRunner
      (fun row => sealResult (familyBody familyId row)) row)).normal)
  have htext : artifactText (sampleDocument node familyId row) =
      (object (sampleDocument node familyId row)).plainText ++ ['\n'] := by
    rw [artifactText, Json.Held.normal (held_sampleDocument row node familyId)]
    rfl
  have hend : byteLength ['\n'] = 1 := by decide
  have hbytes := (byteLength_object (sampleDocument node familyId row)).1
  have hmembers : membersBytes (sampleDocument node familyId row) ≤ _ := h
  rw [htext, byteLength_append, hend]
  omega

theorem length_sampleBatch : sampleBatch.candidates.length = 500 := by
  rw [sampleBatch, candidates_batchOf, length_take, sampleRows, length_map,
    length_range]
  rfl

theorem length_planSha256 (plan : Plan) : plan.planSha256.toList.length ≤ 64 :=
  (length_of_isHexDigest (isHexDigest_planSha256 plan)).le

theorem length_digest (v : Json) : v.digest.toList.length ≤ 64 :=
  (length_of_isHexDigest (Json.isHexDigest_digest v)).le

theorem byteLength_artifactEntry
    (hrow : row.candidateId.toList.length ≤ 64 ∧ row.candidateSpecSha256.toList.length ≤ 64)
    (hsha : (sha row).toList.length ≤ 64) : byteLength (artifactEntry sha row).plainText ≤ 2324 := by
  have hnil : membersBytes .nil ≤ 0 := le_rfl
  have h := membersBytes_insert_short hnil (show "candidate_id".toList.length ≤ 64 by decide) hrow.1
  have h := membersBytes_insert_short h
    (show "candidate_spec_sha256".toList.length ≤ 64 by decide) hrow.2
  have h := membersBytes_insert_short h
    (show "result_artifact_sha256".toList.length ≤ 64 by decide) hsha
  have hobject := (byteLength_object (((JsonMembers.nil.insert "candidate_id"
    (.str row.candidateId)).insert "candidate_spec_sha256" (.str row.candidateSpecSha256)).insert
      "result_artifact_sha256" (.str (sha row)))).1
  rw [artifactEntry, dict, foldl_cons, foldl_cons, foldl_cons, foldl_nil]
  dsimp only
  omega

theorem byteLength_sampleEntries
    (hsha : ∀ row ∈ sampleBatch.candidates, (sha row).toList.length ≤ 64) :
    byteLength (Json.list (sampleBatch.candidates.map (artifactEntry sha))).plainText ≤
      500 * (2324 + 1) + 2 := by
  have hentry : ∀ v ∈ sampleBatch.candidates.map (artifactEntry sha), byteLength v.plainText ≤ 2324 := by
    intro v hv
    obtain ⟨row, hrow, rfl⟩ := mem_map.mp hv
    exact byteLength_artifactEntry (sampleRow_texts hrow) (hsha row hrow)
  have h := byteLength_list hentry
  rwa [length_map, length_sampleBatch] at h

theorem byteLength_count {n : ℕ} (h : n < 1000) :
    byteLength (Json.int (n : ℤ)).plainText ≤ 386 := by
  have hdigits : (Nat.toDigits 10 n).length ≤ 3 :=
    (Nat.length_toDigits_le_iff (by decide) (by decide)).mpr h
  have hsize := byteLength_le (Nat.toDigits 10 n)
  have htext : (int (n : ℤ)).plainText = Nat.toDigits 10 n := by
    rw [plainText, intChars, if_neg (by omega), Int.natAbs_natCast]
  rw [htext]
  omega

theorem byteLength_sampleCount :
    byteLength (Json.int sampleBatch.candidates.length).plainText ≤ 386 :=
  byteLength_count (by rw [length_sampleBatch]; decide)

section
variable {node : String} (hnode : isNode node = true) (familyId : PlanCandidate → String)
include hnode

theorem byteLength_sampleNodes (hlength : node.toList.length ≤ 64) :
    byteLength (Json.list ((producedResults sampleBatch.candidates (sampleDocument node familyId)
      sampleGit sampleRunner).nodes.map .str)).plainText ≤ 1 * (386 + 1) + 2 := by
  have hnodes := nodes_produced batch_sample (produced_sample hnode familyId)
  have h := @byteLength_list 386 ([node].map .str) (by
    intro v hv
    rw [map_singleton, mem_singleton] at hv
    rw [hv]
    exact byteLength_short hlength)
  rw [length_map, length_singleton] at h
  unfold producedResults
  dsimp only
  rwa [hnodes]

theorem membersBytes_sampleManifest (hlength : node.toList.length ≤ 64) :
    membersBytes (batchManifest sampleFrozenPlan.toPlan sampleBatch (producedResults
      sampleBatch.candidates (sampleDocument node familyId) sampleGit sampleRunner)) ≤ 1500000 := by
  have hproduced := produced_sample hnode familyId
  have hdigests : ∀ row ∈ sampleBatch.candidates, ((producedResults sampleBatch.candidates
      (sampleDocument node familyId) sampleGit sampleRunner).artifactSha row).toList.length ≤ 64 := by
    intro row hrow
    rw [artifactSha_produced batch_sample hproduced hrow]
    exact (length_of_isHexDigest
      (isHexDigest_of_digestText (hproduced.valid row hrow).artifact.1)).le
  have hcode : sampleBatch.batchCode.toList.length ≤ 64 := by
    rw [(batch_eq batch_sample).2]
    decide
  have hsha : sampleBatch.batchSha256.toList.length ≤ 64 := by
    unfold sampleBatch batchOf
    exact length_digest _
  unfold batchManifest manifestBase
  have hnil : membersBytes .nil ≤ 0 := le_rfl
  have h := membersBytes_insert_short hnil (show "schema".toList.length ≤ 64 by decide)
    (show batchManifestSchema.toList.length ≤ 64 by decide)
  have h := membersBytes_insert_short h (show "generation_id".toList.length ≤ 64 by decide)
    (show generationId.toList.length ≤ 64 by decide)
  have h := membersBytes_insert_short h (show "plan_sha256".toList.length ≤ 64 by decide)
    (length_planSha256 sampleFrozenPlan.toPlan)
  have h := membersBytes_insert_short h (show "batch_code".toList.length ≤ 64 by decide) hcode
  have h := membersBytes_insert_short h (show "batch_sha256".toList.length ≤ 64 by decide) hsha
  have h := membersBytes_insert_le h (show "candidate_count".toList.length ≤ 64 by decide)
    byteLength_sampleCount
  have h := membersBytes_insert_short h (show "git_sha".toList.length ≤ 64 by decide)
    (show sampleGit.toList.length ≤ 64 by decide)
  have h := membersBytes_insert_short h (show "runner_input_sha256".toList.length ≤ 64 by decide)
    (show sampleRunner.toList.length ≤ 64 by decide)
  have h := membersBytes_insert_le h (show "nodes".toList.length ≤ 64 by decide)
    (byteLength_sampleNodes hnode familyId hlength)
  have h := membersBytes_insert_le h (show "artifacts".toList.length ≤ 64 by decide)
    (byteLength_sampleEntries hdigests)
  refine (membersBytes_insert_short h
    (show "batch_result_manifest_sha256".toList.length ≤ 64 by decide) (length_digest _)).trans ?_
  omega

/-- The header of a sample bundle is short. -/
theorem byteLength_sampleHeader (hlength : node.toList.length ≤ 64) :
    byteLength (Json.object (producedHeader sampleFrozenPlan.toPlan "B001" sampleBatch
      (sampleDocument node familyId) sampleGit sampleRunner)).normal.canonical ≤ 2000000 := by
  have hmanifest := membersBytes_sampleManifest hnode familyId hlength
  have hsha := length_of_isHexDigest
    (validManifest_produced batch_sample (produced_sample hnode familyId)).sha
  have hcount := candidateCount_batchManifest sampleFrozenPlan.toPlan sampleBatch (producedResults
    sampleBatch.candidates (sampleDocument node familyId) sampleGit sampleRunner)
  have hheld := held_batchManifest sampleFrozenPlan.toPlan sampleBatch (producedResults
    sampleBatch.candidates (sampleDocument node familyId) sampleGit sampleRunner)
  unfold producedHeader
  generalize batchManifest sampleFrozenPlan.toPlan sampleBatch (producedResults
    sampleBatch.candidates (sampleDocument node familyId) sampleGit sampleRunner) = manifest
    at hmanifest hsha hcount hheld
  have hobject := (byteLength_object manifest).1.trans (Nat.add_le_add_right hmanifest 2)
  have hnil : membersBytes .nil ≤ 0 := le_rfl
  have h := membersBytes_insert_short hnil (show "schema".toList.length ≤ 64 by decide)
    (show bundleSchema.toList.length ≤ 64 by decide)
  have h := membersBytes_insert_short h (show "plan_sha256".toList.length ≤ 64 by decide)
    (length_planSha256 sampleFrozenPlan.toPlan)
  have h := membersBytes_insert_short h (show "batch_code".toList.length ≤ 64 by decide)
    (show "B001".toList.length ≤ 64 by decide)
  have h := membersBytes_insert_le h (show "candidate_count".toList.length ≤ 64 by decide)
    byteLength_sampleCount
  have h := membersBytes_insert_short h
    (show "batch_result_manifest_sha256".toList.length ≤ 64 by decide) hsha.le
  have h := membersBytes_insert_le h (show "manifest".toList.length ≤ 64 by decide) hobject
  have hheader : membersBytes (bundleHeader sampleFrozenPlan.toPlan "B001" manifest) ≤ 1600000 := by
    unfold bundleHeader
    rw [hcount]
    refine h.trans ?_
    omega
  have hbytes := (byteLength_object (bundleHeader sampleFrozenPlan.toPlan "B001" manifest)).1
  have hend : byteLength ['\n'] = 1 := by decide
  have hnormal : (object (bundleHeader sampleFrozenPlan.toPlan "B001" manifest)).normal =
      object (bundleHeader sampleFrozenPlan.toPlan "B001" manifest) :=
    Json.Held.normal (v := .object _) (held_bundleHeader hheld)
  rw [hnormal, canonical, byteLength_append, hend]
  omega

end

/-- A name that appears at most once adds its value to the sum at most once. -/
theorem sum_le_of_one {α : Type} {name : α → String} {special : String} {small big : ℕ}
    {value : α → ℕ} {rows : List α} (hnodup : (rows.map name).Nodup)
    (hvalue : ∀ row ∈ rows, value row ≤ if name row = special then big else small) :
    (rows.map value).sum ≤ big + rows.length * small := by
  induction rows with
  | nil => exact Nat.zero_le _
  | cons row rows ih =>
    rw [map_cons, nodup_cons] at hnodup
    have hfirst := hvalue row mem_cons_self
    have hothers := fun other hother => hvalue other (mem_cons_of_mem _ hother)
    rw [map_cons, sum_cons, length_cons, Nat.add_mul]
    by_cases hrow : name row = special
    · have hsmall : ∀ n ∈ rows.map value, n ≤ small := by
        intro n hn
        obtain ⟨other, hother, rfl⟩ := mem_map.mp hn
        have hle := hothers other hother
        rwa [if_neg] at hle
        intro hname
        exact hnodup.1 (mem_map.mpr ⟨other, hother, hname.trans hrow.symm⟩)
      have hsum := sum_le_card_nsmul _ _ hsmall
      rw [length_map] at hsum
      change _ ≤ rows.length * small at hsum
      rw [if_pos hrow] at hfirst
      omega
    · have hsum := ih hnodup.2 hothers
      rw [if_neg hrow] at hfirst
      omega

def shortFamily (_ : PlanCandidate) : String := "TREND"

/-- The first candidate has a family of 32 Mi characters. -/
def longFamily (row : PlanCandidate) : String :=
  if row.candidateId = (sampleCandidate 0).candidateId then
    String.ofList (List.replicate maxArtifactLineBytes 'a')
  else "TREND"

theorem length_longFamily (row : PlanCandidate) : (longFamily row).toList.length ≤
    if row.candidateId = (sampleCandidate 0).candidateId then maxArtifactLineBytes else 5 := by
  unfold longFamily
  split
  · rw [String.toList_ofList, length_replicate]
  · decide

/-- The stored sample has every character of its family. -/
theorem length_sampleDocument (row : PlanCandidate) (node : String)
    (familyId : PlanCandidate → String) : (familyId row).toList.length <
      byteLength (artifactText (sampleDocument node familyId row)) := by
  have hchars := length_le_plainStrChars (familyId row)
  have hfamily : (sealResult (familyBody familyId row)).lookup "family_id" =
      some (.str (familyId row)) := by
    rw [lookup_sealResult, if_neg (by decide), lookup_familyBody, if_pos rfl]
  have hresult : (sampleDocument node familyId row).lookup "result" =
      some (.object (sealResult (familyBody familyId row))) := by
    rw [sampleDocument, lookup_producedDocument, if_neg (by decide), if_neg (by decide),
      producedIdentity, lookup_resultIdentity, if_pos rfl]
  have hinner := byteLength_of_lookup hfamily
  have hobject := (byteLength_object (sealResult (familyBody familyId row))).2
  have houter := byteLength_of_lookup hresult
  have hdocument := (byteLength_object (sampleDocument node familyId row)).2
  rw [plainText] at hinner
  rw [artifactText, Json.Held.normal (held_sampleDocument row node familyId), canonical,
    byteLength_append]
  omega

section
variable {node : String} (hnode : isNode node = true) (hlength : node.toList.length ≤ 64)
include hnode hlength

/-- The sample batch has a bundle when its families take at most 32 Mi characters, all but one
of them at most five. -/
theorem buildBatchBundle_sample {familyId : PlanCandidate → String}
    (hfamily : ∀ row, (familyId row).toList.length ≤
      if row.candidateId = (sampleCandidate 0).candidateId then maxArtifactLineBytes else 5) :
    ∃ b, buildBatchBundle (rootOf batch_sample (sampleDocument node familyId))
        sampleFrozenPlan.toPlan "B001" = .ok b ∧
      byteLength b.header ≤ 2000000 ∧
      b.artifacts = sampleBatch.candidates.map fun row =>
        artifactText (sampleDocument node familyId row) := by
  have hheader := byteLength_sampleHeader hnode familyId hlength
  have hlarge := buildBatchBundle_rootOf batch_sample (produced_sample hnode familyId)
  have hsum := @sum_le_of_one _ PlanCandidate.candidateId (sampleCandidate 0).candidateId 40032
    (6 * maxArtifactLineBytes + 40002) (fun row => byteLength (artifactText (sampleDocument node
      familyId row))) _ (nodup_candidateIds batch_sample) (by
    intro row hrow
    have hdocument := byteLength_sampleDocument hrow hlength familyId
    have hchars := byteLength_plainStrChars (familyId row)
    have hname := hfamily row
    split
    · rw [if_pos (by assumption)] at hname
      omega
    · rw [if_neg (by assumption)] at hname
      omega)
  rw [length_sampleBatch] at hsum
  unfold maxArtifactLineBytes at hsum
  obtain ⟨b, hbuild, hbytes, hartifacts⟩ := hlarge (by unfold maxBundleBytes; omega)
  exact ⟨b, hbuild, hbytes ▸ hheader, hartifacts⟩

end

/-- A bundle of a complete batch that is received into an empty root, with a fresh coordinator,
is accepted and leaves the sender's artifact files and the receipt, exactly when its header has
at most 8 MiB and every artifact at most 32 MiB. -/
theorem bundle_agreement (plan : FrozenPlan) {code : String} {frozen : PlanBatch}
    (hbatch : batch plan.toPlan code = .ok frozen) {sender : Files} {b : Bundle}
    (hbuild : buildBatchBundle sender plan.toPlan code = .ok b) {nodeId : String}
    (hnode : isNode nodeId = true) {declared : Option Declared}
    (hdeclared : ∀ d ∈ declared, d = ⟨code, b.manifestSha256⟩) (start now : ℤ) :
    (∃ receipt receiver path text,
        (ingestBatchBundle plan.toPlan nodeId declared b.text).call
            ⟨initialized plan.toPlan start, Table.empty, now⟩ = (.ok receipt, receiver) ∧
          receiptStep receipt = .write path text ∧
          ∀ file, file ∈ receiver.results.rows ↔
            (∃ row ∈ frozen.candidates, file ∈ globResults sender (resultDir code row)) ∨
              file = ⟨path, text⟩) ↔
      byteLength b.header ≤ maxHeaderBytes ∧
        ∀ raw ∈ b.artifacts, byteLength raw ≤ maxArtifactLineBytes := by
  obtain ⟨results, sent, hbuilt⟩ := builtFrom_of_build hbatch hbuild
  constructor
  · intro h
    obtain ⟨receipt, receiver, -, -, hcall, -⟩ := h
    exact short_of_ingest hbatch hbuilt hnode hdeclared hcall
  · intro h
    obtain ⟨receipt, receiver, path, text, hcall, hreceipt, hmem⟩ :=
      ingest_of_short hbatch hbuilt hnode hdeclared start now h.1 h.2
    refine ⟨receipt, receiver, path, text, hcall, hreceipt, fun file => ?_⟩
    rw [hmem, mem_sent_iff hbatch hbuilt.sent]

/-- The builder admits the long result, and the ingester refuses it. -/
theorem bundle_agreement_long : ∃ sender b,
    buildBatchBundle sender sampleFrozenPlan.toPlan "B001" = .ok b ∧
      ∀ receipt receiver, (ingestBatchBundle sampleFrozenPlan.toPlan "NODE-A1" none b.text).call
        ⟨initialized sampleFrozenPlan.toPlan 0, Table.empty, 0⟩ ≠ (.ok receipt, receiver) := by
  have hnode : isNode "NODE-A1" = true := by decide
  obtain ⟨b, hbuild, -, hartifacts⟩ := buildBatchBundle_sample hnode (by decide) length_longFamily
  refine ⟨_, b, hbuild, fun receipt receiver hcall => ?_⟩
  obtain ⟨results, sent, hbuilt⟩ := builtFrom_of_build batch_sample hbuild
  have hshort := (short_of_ingest batch_sample hbuilt hnode (fun d hd => by cases hd) hcall).2
  have hfirst := sampleCandidate_mem (n := 0) (by decide)
  have hline := hshort (artifactText (sampleDocument "NODE-A1" longFamily (sampleCandidate 0)))
    (by rw [hartifacts]; exact List.mem_map_of_mem hfirst)
  have hname : (longFamily (sampleCandidate 0)).toList.length = maxArtifactLineBytes := by
    rw [longFamily, if_pos rfl, String.toList_ofList, List.length_replicate]
  have hlong := length_sampleDocument (sampleCandidate 0) "NODE-A1" longFamily
  omega

/-- A sample of short results. -/
theorem bundle_agreement_sample : ∃ sender b,
    buildBatchBundle sender sampleFrozenPlan.toPlan "B001" = .ok b ∧
      ∃ receipt receiver path text,
        (ingestBatchBundle sampleFrozenPlan.toPlan "NODE-A1" none b.text).call
            ⟨initialized sampleFrozenPlan.toPlan 0, Table.empty, 0⟩ = (.ok receipt, receiver) ∧
          receiptStep receipt = .write path text ∧
          ∀ file, file ∈ receiver.results.rows ↔
            (∃ row ∈ sampleBatch.candidates, file ∈ globResults sender (resultDir "B001" row)) ∨
              file = ⟨path, text⟩ := by
  have hnode : isNode "NODE-A1" = true := by decide
  have hlength : "NODE-A1".toList.length ≤ 64 := by decide
  have hfamily : ∀ row, (shortFamily row).toList.length ≤ 5 := by
    intro row
    exact (show "TREND".toList.length ≤ 5 by decide)
  obtain ⟨b, hbuild, hheader, hartifacts⟩ := @buildBatchBundle_sample _ hnode hlength shortFamily (by
    intro row
    have h := hfamily row
    split
    · exact h.trans (by decide)
    · exact h)
  refine ⟨_, b, hbuild, (bundle_agreement sampleFrozenPlan batch_sample hbuild hnode
    (fun d hd => by cases hd) 0 0).mpr ⟨?_, ?_⟩⟩
  · exact hheader.trans (by decide)
  · intro raw hraw
    rw [hartifacts] at hraw
    obtain ⟨row, hrow, rfl⟩ := List.mem_map.mp hraw
    have hdocument := byteLength_sampleDocument hrow hlength shortFamily
    have hchars := byteLength_plainStrChars (shortFamily row)
    have hname := hfamily row
    unfold maxArtifactLineBytes
    omega

end TradingLab.Factory
