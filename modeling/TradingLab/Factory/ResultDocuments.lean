import TradingLab.Factory.Names

/-!
# Result documents

A result that is written in memory is read back from its file as the same
document, and that document passes its validation. Which node produced it is no
part of what identifies it.
-/

namespace TradingLab.Factory

open Json JsonMembers

variable {v : Json} {sha candidateId nodeId gitSha runnerInputSha256 : String}
  {ms compact identity : JsonMembers} {row : PlanCandidate}

theorem canonicalText_eq_ok {text : List Char} : canonicalText v = .ok text ↔
    v.hasNonFinite = false ∧ v.hasLongInteger = false ∧ text = v.normal.canonical := by
  unfold canonicalText
  cases v.hasNonFinite with
  | true =>
    constructor
    · nofun
    · nofun
  | false =>
    cases v.hasLongInteger with
    | true =>
      constructor
      · nofun
      · nofun
    | false =>
      constructor
      · intro h
        cases h
        exact ⟨rfl, rfl, rfl⟩
      · rintro ⟨-, -, rfl⟩
        rfl

theorem digestText_eq_ok : digestText v = .ok sha ↔
    v.hasNonFinite = false ∧ v.hasLongInteger = false ∧ sha = v.normal.digest := by
  unfold digestText
  rw [bind_eq_ok]
  constructor
  · rintro ⟨text, htext, hsha⟩
    obtain ⟨hfinite, hlong, rfl⟩ := canonicalText_eq_ok.mp htext
    cases hsha
    exact ⟨hfinite, hlong, rfl⟩
  · rintro ⟨hfinite, hlong, rfl⟩
    exact ⟨_, canonicalText_eq_ok.mpr ⟨hfinite, hlong, rfl⟩, rfl⟩

theorem isHexDigest_of_digestText (h : digestText v = .ok sha) :
    Sha256.isHexDigest sha = true := by
  obtain ⟨-, -, rfl⟩ := digestText_eq_ok.mp h
  exact isHexDigest_digest _

theorem readMapping_eq_ok {text : List Char} :
    readMapping text = .ok ms ↔ Json.loads (String.ofList text) = some (.object ms) := by
  unfold readMapping
  constructor
  · intro h
    split at h
    · cases h
    · rename_i ns hns
      cases h
      exact hns
    · cases h
  · intro h
    rw [h]

theorem readMapping_canonical (h : ms.Held) {text : List Char}
    (htext : canonicalText (.object ms) = .ok text) : readMapping text = .ok ms := by
  obtain ⟨hfinite, hlong, rfl⟩ := canonicalText_eq_ok.mp htext
  have hnormal : (object ms).normal = .object ms := Json.Held.normal (v := .object ms) h
  rw [readMapping_eq_ok, hnormal]
  exact loads_canonical h hfinite hlong

theorem held_projectResult {result : JsonMembers} (h : result.Held)
    (hcompact : projectResult result = .ok compact) : compact.Held := by
  unfold projectResult at hcompact
  rw [bind_eq_ok] at hcompact
  obtain ⟨valid, -, hcompact⟩ := hcompact
  rw [raiseIf_bind_eq_ok, raiseIf_bind_eq_ok] at hcompact
  obtain ⟨-, -, hcompact⟩ := hcompact
  dsimp only at hcompact
  rw [bind_eq_ok] at hcompact
  obtain ⟨sha, -, hcompact⟩ := hcompact
  rw [unit_bind_eq_ok] at hcompact
  cases hcompact.2
  have hlist : (list (omittedFields.map .str)).Held := by
    apply held_list
    intro v hv
    obtain ⟨name, -, rfl⟩ := List.mem_map.mp hv
    trivial
  have herased : (omittedFields.foldl (fun ms name => ms.erase name)
      (result.erase "result_sha256")).Held := h.erase.erase.erase.erase
  exact (((herased.insert_str _).insert_str _).insert hlist).insert_str _

theorem held_storageResult {result : JsonMembers} (h : result.Held)
    (hcompact : storageResult result = .ok compact) : compact.Held := by
  unfold storageResult at hcompact
  split at hcompact
  · rw [unit_bind_eq_ok] at hcompact
    cases hcompact.2
    exact h
  · exact held_projectResult h hcompact

theorem held_resultIdentity (plan : Plan) (code : String) (row : PlanCandidate)
    (gitSha runnerInputSha256 : String) (h : compact.Held) :
    (resultIdentity plan code row gitSha runnerInputSha256 compact).Held := by
  unfold resultIdentity
  apply JsonMembers.Held.insert
  · iterate 8 apply JsonMembers.Held.insert_str
    exact trivial
  · exact h

theorem finite_resultIdentity (plan : Plan) (code : String) (row : PlanCandidate)
    (gitSha runnerInputSha256 : String)
    (h : Json.membersHaveNonFinite compact = false) :
    Json.membersHaveNonFinite (resultIdentity plan code row gitSha runnerInputSha256 compact) =
      false := by
  unfold resultIdentity
  have hcompact : (object compact).hasNonFinite = false := h
  apply membersHaveNonFinite_insert hcompact
  iterate 8 apply membersHaveNonFinite_insert rfl
  rfl

theorem short_resultIdentity (plan : Plan) (code : String) (row : PlanCandidate)
    (gitSha runnerInputSha256 : String)
    (h : Json.membersHaveLongInteger compact = false) :
    Json.membersHaveLongInteger (resultIdentity plan code row gitSha runnerInputSha256 compact) =
      false := by
  unfold resultIdentity
  have hcompact : (object compact).hasLongInteger = false := h
  apply membersHaveLongInteger_insert hcompact
  iterate 8 apply membersHaveLongInteger_insert rfl
  rfl

/-- What the validation of a result document asks for. -/
structure ValidDocument (plan : Plan) (code : String) (expected : ExpectedResult)
    (raw : List Char) (document : JsonMembers) : Prop where
  text : canonicalText (.object document) = .ok raw
  schema : document.lookup "schema" = some (.str resultSchema)
  generationId : document.lookup "generation_id" = some (.str Factory.generationId)
  planSha256 : document.lookup "plan_sha256" = some (.str plan.planSha256)
  batchCode : document.lookup "batch_code" = some (.str code)
  candidateId : document.lookup "candidate_id" = some (.str expected.candidateId)
  candidateSpecSha256 :
    document.lookup "candidate_spec_sha256" = some (.str expected.candidateSpecSha256)
  gitSha : ((document.lookup "git_sha").bind Json.str?).any isGitSha = true
  runnerInputSha256 :
    ((document.lookup "runner_input_sha256").bind Json.str?).any Sha256.isHexDigest = true
  producer : ((document.lookup "producer_node_id").bind Json.str?).any isNode = true
  sha : ∃ sha, digestText (.object (identityOf document)) = .ok sha ∧
    document.lookup "result_artifact_sha256" = some (.str sha)
  result : (document.lookup "result").bind (·.get? "candidate_id") =
      some (.str expected.candidateId) ∧
    (document.lookup "result").bind (·.get? "candidate_spec_sha256") =
      some (.str expected.candidateSpecSha256)

theorem validate_eq_ok {plan : Plan} {code : String} {expected : ExpectedResult}
    {raw : List Char} {document d : JsonMembers} :
    validateCandidateResultDocument plan code expected document (some raw) = .ok d ↔
      d = document ∧ ValidDocument plan code expected raw document := by
  unfold validateCandidateResultDocument
  dsimp only
  rw [bind_eq_ok]
  constructor
  · rintro ⟨text, htext, h⟩
    rw [raiseIf_bind_eq_ok, raiseIf_bind_eq_ok, bind_eq_ok] at h
    obtain ⟨hraw, hfields, sha, hsha, h⟩ := h
    rw [raiseIf_bind_eq_ok, raiseIf_bind_eq_ok] at h
    obtain ⟨hartifact, hresult, h⟩ := h
    cases h
    rw [not_not] at hraw hartifact
    subst hraw
    simp only [not_or, not_not, Bool.not_eq_false] at hfields hresult
    obtain ⟨h1, h2, h3, h4, h5, h6, h7, h8, h9⟩ := hfields
    exact ⟨rfl, htext, h1, h2, h3, h4, h5, h6, h7, h8, h9, ⟨sha, hsha, hartifact⟩, hresult⟩
  · rintro ⟨rfl, h⟩
    obtain ⟨sha, hsha, hartifact⟩ := h.sha
    refine ⟨raw, h.text, ?_⟩
    rw [raiseIf_neg (fun hne => hne rfl), ok_bind, raiseIf_neg, ok_bind, hsha, ok_bind,
      raiseIf_neg (fun hne => hne hartifact), ok_bind, raiseIf_neg, ok_bind]
    · rfl
    · rw [not_or, not_not, not_not]
      exact h.result
    · simp only [not_or, not_not, Bool.not_eq_false]
      exact ⟨h.schema, h.generationId, h.planSha256, h.batchCode, h.candidateId,
        h.candidateSpecSha256, h.gitSha, h.runnerInputSha256, h.producer⟩

namespace ValidDocument
variable {plan : Plan} {code : String} {expected : ExpectedResult} {raw : List Char}
    {document : JsonMembers} (h : ValidDocument plan code expected raw document)
include h

theorem artifact : digestText (.object (identityOf document)) =
      .ok (textField document "result_artifact_sha256") ∧
    document.lookup "result_artifact_sha256" =
      some (.str (textField document "result_artifact_sha256")) := by
  obtain ⟨sha, hsha, hlookup⟩ := h.sha
  have hfield : textField document "result_artifact_sha256" = sha := by
    rw [textField, hlookup]
    rfl
  rw [hfield]
  exact ⟨hsha, hlookup⟩

theorem textField_candidateId : textField document "candidate_id" = expected.candidateId := by
  rw [textField, h.candidateId]
  rfl

end ValidDocument

/-- What the checks before a write give. -/
structure CheckedIdentity (plan : Plan) (code candidateId nodeId gitSha runnerInputSha256 : String)
    (result : JsonMembers) (rows : List PlanCandidate) (row : PlanCandidate)
    (compact : JsonMembers) : Prop where
  node : isNode nodeId = true
  gitSha : isGitSha gitSha = true
  runnerInput : Sha256.isHexDigest runnerInputSha256 = true
  listed : batchCandidates plan code = .ok rows
  found : rows.find? (fun row => row.candidateId = candidateId) = some row
  stored : storageResult result = .ok compact
  candidate : compact.lookup "candidate_id" = some (.str candidateId)
  spec : compact.lookup "candidate_spec_sha256" = some (.str row.candidateSpecSha256)

theorem checkedIdentity_eq_ok {plan : Plan} {code : String} {result : JsonMembers} :
    checkedIdentity plan code candidateId nodeId gitSha runnerInputSha256 result = .ok identity ↔
      ∃ rows row compact, CheckedIdentity plan code candidateId nodeId gitSha runnerInputSha256
          result rows row compact ∧
        identity = resultIdentity plan code row gitSha runnerInputSha256 compact := by
  unfold checkedIdentity
  rw [raiseIf_bind_eq_ok, raiseIf_bind_eq_ok, bind_eq_ok]
  simp only [Bool.not_eq_true', Bool.not_eq_false, not_or]
  constructor
  · rintro ⟨hnode, ⟨hgit, hrunner⟩, rows, hrows, h⟩
    split at h
    · cases h
    · rename_i row hrow
      rw [bind_eq_ok] at h
      obtain ⟨compact, hcompact, h⟩ := h
      rw [raiseIf_bind_eq_ok, not_or, not_not, not_not] at h
      cases h.2
      exact ⟨rows, row, compact, ⟨hnode, hgit, hrunner, hrows, hrow, hcompact, h.1.1, h.1.2⟩, rfl⟩
  · rintro ⟨rows, row, compact, h, rfl⟩
    refine ⟨h.node, ⟨h.gitSha, h.runnerInput⟩, rows, h.listed, ?_⟩
    rw [h.found]
    dsimp only
    rw [h.stored, ok_bind, raiseIf_neg, ok_bind]
    · rfl
    · rw [not_or, not_not, not_not]
      exact ⟨h.candidate, h.spec⟩

/-- A compact result of a candidate of the batch passes the checks. -/
theorem checkedIdentity_of_storage {plan : Plan} {code : String} {frozen : PlanBatch}
    (hbatch : batch plan code = .ok frozen) (hrow : row ∈ frozen.candidates)
    (hnode : isNode nodeId = true)
    (hgit : isGitSha gitSha = true) (hrunner : Sha256.isHexDigest runnerInputSha256 = true)
    {result : JsonMembers} (hstored : storageResult result = .ok result)
    (hid : result.lookup "candidate_id" = some (.str row.candidateId))
    (hspec : result.lookup "candidate_spec_sha256" = some (.str row.candidateSpecSha256)) :
    CheckedIdentity plan code row.candidateId nodeId gitSha runnerInputSha256 result
      frozen.candidates row result := by
  have hrows : batchCandidates plan code = .ok frozen.candidates := by
    rw [batchCandidates, hbatch]
    rfl
  have hfound : frozen.candidates.find? (fun r => r.candidateId = row.candidateId) = some row := by
    have hsome : (frozen.candidates.find? fun r => r.candidateId = row.candidateId).isSome := by
      rw [List.find?_isSome]
      exact ⟨row, hrow, decide_eq_true rfl⟩
    obtain ⟨found, hfind⟩ := Option.isSome_iff_exists.mp hsome
    have hname : found.candidateId = row.candidateId := by simpa using List.find?_some hfind
    rw [hfind, List.inj_on_of_nodup_map (nodup_candidateIds hbatch)
      (List.mem_of_find?_eq_some hfind) hrow hname]
  exact ⟨hnode, hgit, hrunner, hrows, hfound, hstored, hid, hspec⟩

theorem lookup_resultIdentity (plan : Plan) (code : String) (row : PlanCandidate)
    (gitSha runnerInputSha256 : String) (compact : JsonMembers) (key : String) :
    (resultIdentity plan code row gitSha runnerInputSha256 compact).lookup key =
      if key = "result" then some (.object compact)
      else if key = "runner_input_sha256" then some (.str runnerInputSha256)
      else if key = "git_sha" then some (.str gitSha)
      else if key = "candidate_spec_sha256" then some (.str row.candidateSpecSha256)
      else if key = "candidate_id" then some (.str row.candidateId)
      else if key = "batch_code" then some (.str code)
      else if key = "plan_sha256" then some (.str plan.planSha256)
      else if key = "generation_id" then some (.str generationId)
      else if key = "schema" then some (.str resultSchema)
      else none := by
  simp only [resultIdentity, lookup_insert]
  rfl

theorem identityOf_resultDocument (nodeId sha : String)
    (hnode : identity.lookup "producer_node_id" = none)
    (hsha : identity.lookup "result_artifact_sha256" = none) :
    identityOf (resultDocument identity nodeId sha) = identity := by
  unfold identityOf resultDocument
  rw [erase_insert, erase_insert _ _ _ hnode]
  rw [lookup_insert, if_neg (by decide), hsha]

/-- The document that a result is stored as has a text, and passes its validation. -/
theorem validDocument_resultDocument {plan : Plan} {code : String} {result : JsonMembers}
    {rows : List PlanCandidate}
    (h : CheckedIdentity plan code candidateId nodeId gitSha runnerInputSha256 result rows row compact)
    (hsha : digestText (.object (resultIdentity plan code row gitSha runnerInputSha256 compact)) =
      .ok sha) :
    ∃ text, ValidDocument plan code row.expected text
      (resultDocument (resultIdentity plan code row gitSha runnerInputSha256 compact) nodeId sha) := by
  have hget := lookup_resultIdentity plan code row gitSha runnerInputSha256 compact
  have hid : row.candidateId = candidateId := by simpa using List.find?_some h.found
  have hidentity := identityOf_resultDocument nodeId sha (hget "producer_node_id")
    (hget "result_artifact_sha256")
  generalize hi : resultIdentity plan code row gitSha runnerInputSha256 compact = identity
    at hsha hidentity hget
  have hlookup : ∀ key, (resultDocument identity nodeId sha).lookup key =
      if key = "result_artifact_sha256" then some (.str sha)
      else if key = "producer_node_id" then some (.str nodeId) else identity.lookup key := by
    intro key
    rw [resultDocument, lookup_insert, lookup_insert]
  obtain ⟨hfinite, hlong, -⟩ := digestText_eq_ok.mp hsha
  have htext : canonicalText (.object (resultDocument identity nodeId sha)) =
      .ok (object (resultDocument identity nodeId sha)).normal.canonical := by
    apply canonicalText_eq_ok.mpr
    refine ⟨?_, ?_, rfl⟩
    · exact membersHaveNonFinite_insert rfl _ (membersHaveNonFinite_insert rfl _ hfinite)
    · exact membersHaveLongInteger_insert rfl _ (membersHaveLongInteger_insert rfl _ hlong)
  rw [← hidentity] at hsha
  refine ⟨_, htext, ?_, ?_, ?_, ?_, ?_, ?_, ?_, ?_, ?_, ⟨sha, hsha, ?_⟩, ?_⟩
  all_goals simp only [hlookup, hget]
  · rfl
  · rfl
  · rfl
  · rfl
  · rfl
  · rfl
  · exact h.gitSha
  · exact h.runnerInput
  · exact h.node
  · rfl
  · have hcandidate := h.candidate
    rw [← hid] at hcandidate
    exact ⟨hcandidate, h.spec⟩

def sealResult (body : JsonMembers) : JsonMembers :=
  body.insert "result_sha256" (.str (Json.object body).normal.digest)

structure ProjectedBody (body : JsonMembers) : Prop where
  finite : Json.membersHaveNonFinite body = false
  short : Json.membersHaveLongInteger body = false
  unsealed : body.lookup "result_sha256" = none
  schema : body.lookup "projection_schema" = some (.str projectionSchema)
  omitted : body.lookup "projection_omitted_fields" = some (.list (omittedFields.map .str))
  light : ∀ name ∈ omittedFields, body.lookup name = none
  source : ((body.lookup "source_full_result_sha256").bind Json.str?).any Sha256.isHexDigest = true
  complete : ∀ name ∈ requiredAdjudicationFields, (body.lookup name).isSome = true
  daily : ∃ daily, body.lookup "daily_return_series" = some (.object daily) ∧
    validateDailyEvidence daily = .ok ()

theorem lookup_sealResult (body : JsonMembers) (key : String) : (sealResult body).lookup key =
    if key = "result_sha256" then some (.str (Json.object body).normal.digest)
    else body.lookup key := JsonMembers.lookup_insert _ _ _ _

namespace ProjectedBody
variable {body : JsonMembers} (h : ProjectedBody body)
include h

theorem validResult : validResult (sealResult body) = .ok true := by
  have hdigest : digestText (.object body) = .ok (object body).normal.digest :=
    digestText_eq_ok.mpr ⟨h.finite, h.short, rfl⟩
  have herase : (sealResult body).erase "result_sha256" = body :=
    erase_insert _ _ _ h.unsealed
  unfold Factory.validResult
  rw [lookup_sealResult, if_pos rfl]
  dsimp only
  rw [herase, hdigest, ok_bind]
  simp
  rfl

theorem validateProjection : validateProjection (sealResult body) = .ok () := by
  have hget : ∀ key, key ≠ "result_sha256" → (sealResult body).lookup key = body.lookup key := by
    intro key hne
    rw [lookup_sealResult, if_neg hne]
  have hlight : (omittedFields.any fun name => ((sealResult body).lookup name).isSome) = false := by
    rw [List.any_eq_false]
    intro name hname
    have hne : name ≠ "result_sha256" := by
      rintro rfl
      revert hname
      decide
    rw [hget name hne, h.light name hname]
    exact Bool.false_ne_true
  have hcomplete : missingFields (sealResult body) = [] := by
    rw [missingFields, List.filter_eq_nil_iff]
    intro name hname
    have hne : name ≠ "result_sha256" := by
      rintro rfl
      revert hname
      decide
    rw [hget name hne, Option.isNone_iff_eq_none, ← Option.not_isSome_iff_eq_none, not_not]
    exact h.complete name hname
  have hschema := hget "projection_schema" (by decide)
  have homitted := hget "projection_omitted_fields" (by decide)
  have hsource := hget "source_full_result_sha256" (by decide)
  have hdigest : ¬ ((body.lookup "source_full_result_sha256").bind str?).any
      Sha256.isHexDigest = false := by
    rw [h.source]
    decide
  obtain ⟨daily, hdaily, hvalid⟩ := h.daily
  rw [← hget "daily_return_series" (by decide)] at hdaily
  unfold Factory.validateProjection
  rw [h.validResult, ok_bind, raiseIf_neg (by simp), ok_bind, hschema, h.schema,
    raiseIf_neg (by simp), ok_bind, homitted, h.omitted]
  dsimp only [list, tupleOf]
  rw [JsonItems.toList_ofList, ok_bind, raiseIf_neg (fun hne => hne rfl), ok_bind, hlight,
    raiseIf_neg Bool.false_ne_true, ok_bind, hsource, raiseIf_neg hdigest, ok_bind, hcomplete,
    raiseIf_neg (fun hne => hne rfl), ok_bind, hdaily]
  exact hvalid

theorem storageResult : storageResult (sealResult body) = .ok (sealResult body) := by
  have hschema : (sealResult body).lookup "projection_schema" = some (.str projectionSchema) := by
    rw [lookup_sealResult, if_neg (by decide)]
    exact h.schema
  unfold Factory.storageResult
  rw [if_pos hschema, h.validateProjection]
  rfl

end ProjectedBody

def sampleDaily : Json := .dict [
  ("calendar_days", .list [.str "2024-01-01", .str "2024-01-02"]),
  ("returns", .list [.str "0", .str "0"]), ("valid_mask", .list [.bool true, .bool true])]

/-- A compact result of a candidate, without its digest. -/
def sampleBody (row : PlanCandidate) : JsonMembers :=
  (requiredAdjudicationFields.foldl (fun ms name => ms.insert name .null) JsonMembers.nil)
    |>.insert "candidate_id" (.str row.candidateId)
    |>.insert "candidate_spec_sha256" (.str row.candidateSpecSha256)
    |>.insert "daily_return_series" sampleDaily
    |>.insert "projection_schema" (.str projectionSchema)
    |>.insert "source_full_result_sha256" (.str (String.ofList (List.replicate 64 'e')))
    |>.insert "projection_omitted_fields" (.list (omittedFields.map .str))

def sampleResult (row : PlanCandidate) : JsonMembers :=
  (sampleBody row).insert "result_sha256" (.str (Json.object (sampleBody row)).normal.digest)

theorem lookup_sampleResult (row : PlanCandidate) (key : String) :
    (sampleResult row).lookup key =
      if key = "result_sha256" then some (.str (Json.object (sampleBody row)).normal.digest)
      else (sampleBody row).lookup key := JsonMembers.lookup_insert _ _ _ _

theorem held_sampleDaily : sampleDaily.Held := by
  have hlist : ∀ items : List Json, (∀ v ∈ items, v.Held) → (list items).Held :=
    fun _ => held_list
  have hdaily : (((JsonMembers.nil.insert "calendar_days"
      (.list [.str "2024-01-01", .str "2024-01-02"])).insert "returns"
        (.list [.str "0", .str "0"])).insert "valid_mask"
          (.list [.bool true, .bool true])).Held := by
    apply JsonMembers.Held.insert
    · apply JsonMembers.Held.insert
      · apply JsonMembers.Held.insert
        · exact trivial
        · apply hlist
          simp [Json.Held]
      · apply hlist
        simp [Json.Held]
    · apply hlist
      simp [Json.Held]
  exact hdaily

theorem held_sampleBody (row : PlanCandidate) : (sampleBody row).Held := by
  have hrequired : ∀ (names : List String) (ms : JsonMembers), ms.Held →
      (names.foldl (fun ms name => ms.insert name .null) ms).Held := by
    intro names
    induction names with
    | nil => exact fun ms hms => hms
    | cons name names ih =>
      intro ms hms
      apply ih
      apply hms.insert
      exact trivial
  have homitted : (list (omittedFields.map .str)).Held := by
    apply held_list
    intro v hv
    obtain ⟨name, -, rfl⟩ := List.mem_map.mp hv
    trivial
  unfold sampleBody
  apply JsonMembers.Held.insert _ homitted
  apply JsonMembers.Held.insert_str
  apply JsonMembers.Held.insert_str
  apply JsonMembers.Held.insert _ held_sampleDaily
  apply JsonMembers.Held.insert_str
  apply JsonMembers.Held.insert_str
  exact hrequired _ _ trivial

theorem held_sampleResult (row : PlanCandidate) : (sampleResult row).Held :=
  (held_sampleBody row).insert_str _

theorem finite_sampleBody (row : PlanCandidate) :
    Json.membersHaveNonFinite (sampleBody row) = false := by
  unfold sampleBody
  iterate 6 apply membersHaveNonFinite_insert rfl
  decide

theorem short_sampleBody (row : PlanCandidate) :
    Json.membersHaveLongInteger (sampleBody row) = false := by
  unfold sampleBody
  iterate 6 apply membersHaveLongInteger_insert rfl
  decide

theorem finite_sampleResult (row : PlanCandidate) :
    Json.membersHaveNonFinite (sampleResult row) = false :=
  Json.membersHaveNonFinite_insert rfl _ (finite_sampleBody row)

theorem short_sampleResult (row : PlanCandidate) :
    Json.membersHaveLongInteger (sampleResult row) = false :=
  Json.membersHaveLongInteger_insert rfl _ (short_sampleBody row)

theorem projectedBody_sample (row : PlanCandidate) : ProjectedBody (sampleBody row) where
  finite := finite_sampleBody row
  short := short_sampleBody row
  unsealed := rfl
  schema := rfl
  omitted := rfl
  light := by
    intro name hname
    fin_cases hname <;> rfl
  source := by
    have hsource : (sampleBody row).lookup "source_full_result_sha256" =
        some (.str (String.ofList (List.replicate 64 'e'))) := rfl
    rw [hsource]
    decide
  complete := by
    intro name hname
    fin_cases hname <;> rfl
  daily := ⟨_, rfl, rfl⟩

theorem storageResult_sample (row : PlanCandidate) :
    storageResult (sampleResult row) = .ok (sampleResult row) :=
  (projectedBody_sample row).storageResult

end TradingLab.Factory
