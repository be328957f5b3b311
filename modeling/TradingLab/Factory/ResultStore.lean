import TradingLab.Factory.ResultDocuments

/-!
# The store of candidate results

Nodes write the results of a batch in any order and repeat what they have
written. A result is stored when its candidate has none; the same result again
is accepted and changes nothing, and another one is refused.
-/

namespace TradingLab.Factory

open Method

def resultDir (code : String) (row : PlanCandidate) : List String :=
  ["results", code, row.candidateId]

def resultFile (code : String) (row : PlanCandidate) (sha : String) : List String :=
  ["results", code, row.candidateId, resultFileName sha]

theorem resultFile_dropLast (code : String) (row : PlanCandidate) (sha : String) :
    (resultFile code row sha).dropLast = resultDir code row := rfl

theorem isResultName_resultFile (code : String) (row : PlanCandidate) (sha : String) :
    ((resultFile code row sha).getLast?).any isResultName = true := isResultName_resultFileName sha

theorem find?_of_globResults {files : Files} {path : List String}
    (hempty : globResults files path.dropLast = []) (hname : (path.getLast?).any isResultName = true) :
    files.find? path = none := by
  cases hfind : files.find? path with
  | none => rfl
  | some file =>
    have hpath : file.path = path := Table.key_of_find? hfind
    have hmem : file ∈ globResults files path.dropLast := by
      rw [mem_globResults, hpath]
      exact ⟨Table.mem_of_find? hfind, rfl, hname⟩
    rw [hempty] at hmem
    cases hmem

theorem globResults_put_ne {files : Files} {file : File} {directory : List String}
    (hnew : files.find? file.path = none)
    (hother : ¬ (file.path.dropLast = directory ∧ (file.path.getLast?).any isResultName = true)) :
    globResults (files.put file) directory = globResults files directory := by
  unfold globResults
  rw [Table.rows_put_of_find?_none hnew, List.filter_append]
  have hnone : [file].filter (fun f : File => f.path.dropLast = directory ∧
      (f.path.getLast?).any isResultName) = [] := by
    rw [List.filter_cons_of_neg (by simpa using hother)]
    rfl
  rw [hnone, List.append_nil]

theorem globResults_put_self {files : Files} {file : File}
    (hempty : globResults files file.path.dropLast = [])
    (hname : (file.path.getLast?).any isResultName = true) :
    globResults (files.put file) file.path.dropLast = [file] := by
  have hnew := find?_of_globResults hempty hname
  unfold globResults at hempty ⊢
  rw [Table.rows_put_of_find?_none hnew, List.filter_append]
  have hnone : files.rows.filter (fun f : File => f.path.dropLast = file.path.dropLast ∧
      (f.path.getLast?).any isResultName) = [] := by
    rw [← List.length_eq_zero_iff] at hempty ⊢
    rwa [List.length_insertionSort] at hempty
  rw [hnone, List.nil_append, List.filter_cons_of_pos (by simpa using hname)]
  rfl

/-- The candidate has this one result file, and it is valid. -/
structure Stored (plan : Plan) (code : String) (files : Files) (row : PlanCandidate) (file : File)
    (document : JsonMembers) : Prop where
  only : globResults files (resultDir code row) = [file]
  read : readMapping file.text = .ok document
  valid : ValidDocument plan code row.expected file.text document

def artifactSha (document : JsonMembers) : String := textField document "result_artifact_sha256"

/-- Every candidate has no result file, or one that is valid. -/
def Sound (plan : Plan) (code : String) (rows : List PlanCandidate) (files : Files) : Prop :=
  ∀ row ∈ rows, globResults files (resultDir code row) = [] ∨
    ∃ file document, Stored plan code files row file document

section
variable {plan : FrozenPlan} {code : String} {frozen : PlanBatch}
    (hbatch : batch plan.toPlan code = .ok frozen) {files : Files} {row : PlanCandidate}
    (hrow : row ∈ frozen.candidates)
include hbatch hrow

theorem read_of_empty (h : globResults files (resultDir code row) = []) :
    readCandidateResult files plan.toPlan code row = .ok none := by
  unfold readCandidateResult
  rw [candidateResultDir_eq hbatch hrow, ok_bind]
  rw [resultDir] at h
  rw [h]
  rfl

theorem read_of_stored {file : File} {document : JsonMembers}
    (h : Stored plan.toPlan code files row file document) :
    readCandidateResult files plan.toPlan code row = .ok (some document) := by
  unfold readCandidateResult
  have honly := h.only
  rw [resultDir] at honly
  rw [candidateResultDir_eq hbatch hrow, ok_bind, honly]
  dsimp only
  rw [h.read, ok_bind, validate_eq_ok.mpr ⟨rfl, h.valid⟩]
  rfl

theorem stored_of_read {document : JsonMembers}
    (h : readCandidateResult files plan.toPlan code row = .ok (some document)) :
    ∃ file, Stored plan.toPlan code files row file document := by
  unfold readCandidateResult at h
  rw [candidateResultDir_eq hbatch hrow, ok_bind] at h
  split at h
  · cases h
  · rename_i file hglob
    rw [bind_eq_ok] at h
    obtain ⟨read, hread, h⟩ := h
    rw [bind_eq_ok] at h
    obtain ⟨valid, hvalid, h⟩ := h
    cases h
    obtain ⟨rfl, hdocument⟩ := validate_eq_ok.mp hvalid
    exact ⟨file, hglob, hread, hdocument⟩
  · cases h

end

/-- A call of a node that writes a result it holds in memory. -/
structure ResultCall where
  candidateId : String
  nodeId : String
  gitSha : String
  runnerInputSha256 : String
  result : JsonMembers
  held : result.Held

namespace ResultCall

def write (plan : Plan) (code : String) (c : ResultCall) : RootCall WrittenResult :=
  writeCandidateResult plan code c.candidateId c.nodeId c.gitSha c.runnerInputSha256 c.result

def identity (plan : Plan) (code : String) (c : ResultCall) : Except Failure JsonMembers :=
  checkedIdentity plan code c.candidateId c.nodeId c.gitSha c.runnerInputSha256 c.result

/-- The digest that the result would be stored under. -/
def sha (plan : Plan) (code : String) (c : ResultCall) : Except Failure String := do
  digestText (.object (← c.identity plan code))

end ResultCall

theorem call_write_of_error {plan : Plan} {code : String} {c : ResultCall} {e : Failure}
    (h : c.sha plan code = .error e) (files : Files) :
    (c.write plan code).call files = (.error e, files) := by
  unfold ResultCall.sha ResultCall.identity at h
  unfold ResultCall.write writeCandidateResult
  rw [call_bind, call_check]
  rw [bind_eq_error] at h
  rcases h with h | ⟨identity, hidentity, h⟩
  · rw [h]
  · rw [hidentity]
    dsimp only
    rw [call_bind, call_check, h]

theorem call_writeOnce_of_none {files : Files} {path : List String} (text : List Char)
    (h : files.find? path = none) :
    (writeOnce path text).call files = (.ok (), files.put ⟨path, text⟩) := by
  unfold writeOnce
  rw [call_read_bind, h]
  rfl

theorem call_writeOnce_of_some {files : Files} {path : List String} {file : File}
    (text : List Char) (h : files.find? path = some file) :
    (writeOnce path text).call files =
      (raiseIf (file.text ≠ text) (.mcf "artifact collision"), files) := by
  unfold writeOnce
  rw [call_read_bind, h]
  rfl

section
variable {plan : FrozenPlan} {code : String} {frozen : PlanBatch}
    (hbatch : batch plan.toPlan code = .ok frozen) {files : Files} {c : ResultCall} {sha : String}
    (hsha : c.sha plan.toPlan code = .ok sha)
include hbatch hsha

theorem identity_of_sha : ∃ row ∈ frozen.candidates, ∃ compact : JsonMembers,
    row.candidateId = c.candidateId ∧ compact.Held ∧
    CheckedIdentity plan.toPlan code c.candidateId c.nodeId c.gitSha c.runnerInputSha256 c.result
      frozen.candidates row compact ∧
    c.identity plan.toPlan code =
      .ok (resultIdentity plan.toPlan code row c.gitSha c.runnerInputSha256 compact) ∧
    digestText (.object (resultIdentity plan.toPlan code row c.gitSha c.runnerInputSha256 compact)) =
      .ok sha := by
  unfold ResultCall.sha at hsha
  rw [bind_eq_ok] at hsha
  obtain ⟨identity, hidentity, hdigest⟩ := hsha
  obtain ⟨rows, row, compact, h, rfl⟩ := checkedIdentity_eq_ok.mp hidentity
  have hrows : rows = frozen.candidates := by
    have hlisted := h.listed
    rw [batchCandidates, hbatch] at hlisted
    cases hlisted
    rfl
  subst hrows
  have hid : row.candidateId = c.candidateId := by simpa using List.find?_some h.found
  exact ⟨row, List.mem_of_find?_eq_some h.found, compact, hid,
    held_storageResult c.held h.stored, h, hidentity, hdigest⟩

/-- A call looks at the directory of its candidate. -/
theorem call_write_of_ok : ∃ row ∈ frozen.candidates, row.candidateId = c.candidateId ∧
    (∀ file rest, globResults files (resultDir code row) = file :: rest →
      (c.write plan.toPlan code).call files = (acceptExisting code c.candidateId sha file, files)) ∧
    (globResults files (resultDir code row) = [] →
      ∃ text document, readMapping text = .ok document ∧
        ValidDocument plan.toPlan code row.expected text document ∧
        document.lookup "git_sha" = some (.str c.gitSha) ∧
        document.lookup "runner_input_sha256" = some (.str c.runnerInputSha256) ∧
        document.lookup "producer_node_id" = some (.str c.nodeId) ∧ artifactSha document = sha ∧
        (c.write plan.toPlan code).call files =
          (.ok ⟨code, c.candidateId, sha, resultFile code row sha⟩,
            files.put ⟨resultFile code row sha, text⟩)) := by
  obtain ⟨row, hrow, compact, hid, hheld, hchecked, hidentity, hdigest⟩ :=
    identity_of_sha hbatch hsha
  have hpath := resultPath_eq hbatch hrow (isHexDigest_of_digestText hdigest)
  have hdir := candidateResultDir_eq hbatch hrow
  rw [hid] at hpath hdir
  refine ⟨row, hrow, hid, ?_⟩
  -- the call after its checks
  unfold ResultCall.identity at hidentity
  unfold ResultCall.write writeCandidateResult
  rw [call_bind, call_check, hidentity]
  dsimp only
  rw [call_bind, call_check, hdigest]
  dsimp only
  rw [call_bind, call_check, hdir]
  dsimp only
  rw [call_bind, call_check, hpath]
  dsimp only
  rw [call_read_bind, ← hid, ← resultDir]
  constructor
  · intro file rest hglob
    rw [hglob]
    rfl
  · intro hglob
    have hnew : files.find? (resultFile code row sha) = none :=
      find?_of_globResults hglob (isResultName_resultFile code row sha)
    obtain ⟨text, hvalid⟩ := validDocument_resultDocument hchecked hdigest
    have hget := lookup_resultIdentity plan.toPlan code row c.gitSha c.runnerInputSha256 compact
    generalize hi : resultIdentity plan.toPlan code row c.gitSha c.runnerInputSha256 compact =
      identity at hvalid hget ⊢
    have hdocument : (resultDocument identity c.nodeId sha).Held := by
      rw [← hi]
      exact ((held_resultIdentity _ _ _ _ _ hheld).insert_str _).insert_str _
    have hlookup : ∀ key, (resultDocument identity c.nodeId sha).lookup key =
        if key = "result_artifact_sha256" then some (.str sha)
        else if key = "producer_node_id" then some (.str c.nodeId) else identity.lookup key := by
      intro key
      rw [resultDocument, JsonMembers.lookup_insert, JsonMembers.lookup_insert]
    refine ⟨text, _, readMapping_canonical hdocument hvalid.text, hvalid, ?_, ?_, ?_, ?_, ?_⟩
    · rw [hlookup, hget]
      rfl
    · rw [hlookup, hget]
      rfl
    · rw [hlookup]
      rfl
    · rw [artifactSha, textField, hlookup]
      rfl
    · rw [hglob]
      dsimp only
      rw [call_bind, call_check, hvalid.text]
      dsimp only
      rw [call_bind, ← resultFile, call_writeOnce_of_none text hnew]
      rfl

end

theorem acceptExisting_of_stored {plan : Plan} {code : String} {files : Files} {row : PlanCandidate}
    {file : File} {document : JsonMembers} (h : Stored plan code files row file document)
    (candidateId sha : String) :
    acceptExisting code candidateId sha file =
      if artifactSha document = sha then .ok ⟨code, candidateId, artifactSha document, file.path⟩
      else .error (.mcf "nondeterministic duplicate candidate result") := by
  obtain ⟨hdigest, hlookup⟩ := h.valid.artifact
  unfold acceptExisting
  rw [h.read, ok_bind, hdigest, ok_bind, raiseIf_neg (fun hne => hne hlookup), ok_bind]
  change (raiseIf (artifactSha document ≠ sha) _ >>= _) = _
  by_cases hsame : artifactSha document = sha
  · rw [raiseIf_neg (fun hne => hne hsame), if_pos hsame]
    rfl
  · rw [raiseIf_pos hsame, if_neg hsame]
    rfl

/-- One call on a sound store, with the store it leaves. -/
inductive Outcome (plan : Plan) (code : String) (rows : List PlanCandidate) (files : Files)
    (c : ResultCall) : Files → Prop where
  | refused {e : Failure} : c.sha plan code = .error e →
      (c.write plan code).call files = (.error e, files) → Outcome plan code rows files c files
  | repeated {row : PlanCandidate} {file : File} {document : JsonMembers} : row ∈ rows →
      row.candidateId = c.candidateId → Stored plan code files row file document →
      c.sha plan code = .ok (artifactSha document) →
      (c.write plan code).call files =
        (.ok ⟨code, c.candidateId, artifactSha document, file.path⟩, files) →
      Outcome plan code rows files c files
  | conflicting {row : PlanCandidate} {file : File} {document : JsonMembers} {sha : String} :
      row ∈ rows → row.candidateId = c.candidateId → Stored plan code files row file document →
      c.sha plan code = .ok sha → sha ≠ artifactSha document →
      (c.write plan code).call files =
        (.error (.mcf "nondeterministic duplicate candidate result"), files) →
      Outcome plan code rows files c files
  | created {row : PlanCandidate} {text : List Char} {document : JsonMembers} : row ∈ rows →
      row.candidateId = c.candidateId → globResults files (resultDir code row) = [] →
      readMapping text = .ok document → ValidDocument plan code row.expected text document →
      document.lookup "git_sha" = some (.str c.gitSha) →
      document.lookup "runner_input_sha256" = some (.str c.runnerInputSha256) →
      document.lookup "producer_node_id" = some (.str c.nodeId) →
      c.sha plan code = .ok (artifactSha document) →
      (c.write plan code).call files =
        (.ok ⟨code, c.candidateId, artifactSha document, resultFile code row (artifactSha document)⟩,
          files.put ⟨resultFile code row (artifactSha document), text⟩) →
      Outcome plan code rows files c
        (files.put ⟨resultFile code row (artifactSha document), text⟩)

theorem globResults_created_self {code : String} {files : Files} {row : PlanCandidate}
    {sha : String} {text : List Char} (hempty : globResults files (resultDir code row) = []) :
    globResults (files.put ⟨resultFile code row sha, text⟩) (resultDir code row) =
      [⟨resultFile code row sha, text⟩] := by
  apply globResults_put_self
  · exact hempty
  · exact isResultName_resultFile code row sha

theorem find?_pause_outcome {plan : Plan} {code : String} {rows : List PlanCandidate}
    {files files' : Files} {c : ResultCall} (ho : Outcome plan code rows files c files') :
    files'.find? ["control", code ++ ".pause"] = files.find? ["control", code ++ ".pause"] := by
  cases ho with
  | refused => rfl
  | repeated => rfl
  | conflicting => rfl
  | created =>
    apply Table.find?_put_ne
    intro h
    injection h with hroot
    revert hroot
    decide

section
variable {plan : FrozenPlan} {code : String} {frozen : PlanBatch}
    (hbatch : batch plan.toPlan code = .ok frozen)
include hbatch

theorem outcome {files : Files} (hs : Sound plan.toPlan code frozen.candidates files)
    (c : ResultCall) :
    Outcome plan.toPlan code frozen.candidates files c ((c.write plan.toPlan code).after files) := by
  cases hsha : c.sha plan.toPlan code with
  | error e =>
    have hcall := call_write_of_error hsha files
    have hafter : (c.write plan.toPlan code).after files = files := by rw [Method.after, hcall]
    rw [hafter]
    exact .refused hsha hcall
  | ok sha =>
    obtain ⟨row, hrow, hid, hsome, hnone⟩ := @call_write_of_ok _ _ _ hbatch files c _ hsha
    rcases hs row hrow with hempty | ⟨file, document, hstored⟩
    · obtain ⟨text, document, hread, hvalid, hgit, hrunner, hnode, rfl, hcall⟩ := hnone hempty
      have hafter : (c.write plan.toPlan code).after files =
          files.put ⟨resultFile code row (artifactSha document), text⟩ := by
        rw [Method.after, hcall]
      rw [hafter]
      exact .created hrow hid hempty hread hvalid hgit hrunner hnode hsha hcall
    · have hcall := hsome file [] hstored.only
      rw [acceptExisting_of_stored hstored] at hcall
      have hafter : (c.write plan.toPlan code).after files = files := by rw [Method.after, hcall]
      rw [hafter]
      by_cases hsame : artifactSha document = sha
      · subst hsame
        rw [if_pos rfl] at hcall
        exact .repeated hrow hid hstored hsha hcall
      · rw [if_neg hsame] at hcall
        exact .conflicting hrow hid hstored hsha (Ne.symm hsame) hcall

theorem globResults_created {files : Files} {row other : PlanCandidate} {sha : String}
    {text : List Char} (hrow : row ∈ frozen.candidates) (hother : other ∈ frozen.candidates)
    (hne : other ≠ row) (hempty : globResults files (resultDir code row) = []) :
    globResults (files.put ⟨resultFile code row sha, text⟩) (resultDir code other) =
      globResults files (resultDir code other) := by
  apply globResults_put_ne
  · exact find?_of_globResults hempty (isResultName_resultFile code row sha)
  · intro h
    apply hne
    have hid : row.candidateId = other.candidateId := by
      have hdir : resultDir code row = resultDir code other := h.1
      unfold resultDir at hdir
      injection hdir with _ hdir
      injection hdir with _ hdir
      injection hdir
    exact List.inj_on_of_nodup_map (nodup_candidateIds hbatch) hother hrow hid.symm

theorem Stored.outcome {files files' : Files} {c : ResultCall} {row : PlanCandidate} {file : File}
    {document : JsonMembers} (h : Stored plan.toPlan code files row file document)
    (hrow : row ∈ frozen.candidates)
    (ho : Outcome plan.toPlan code frozen.candidates files c files') :
    Stored plan.toPlan code files' row file document := by
  cases ho with
  | refused => exact h
  | repeated => exact h
  | conflicting => exact h
  | @created created _ _ hcreated _ hempty =>
    have hne : row ≠ created := by
      rintro rfl
      have honly := h.only
      rw [hempty] at honly
      cases honly
    refine ⟨?_, h.read, h.valid⟩
    rw [globResults_created hbatch hcreated hrow hne hempty]
    exact h.only

theorem Sound.outcome {files files' : Files} {c : ResultCall}
    (hs : Sound plan.toPlan code frozen.candidates files)
    (ho : Outcome plan.toPlan code frozen.candidates files c files') :
    Sound plan.toPlan code frozen.candidates files' := by
  intro row hrow
  rcases hs row hrow with hempty | ⟨file, document, hstored⟩
  · cases ho with
    | refused => exact .inl hempty
    | repeated => exact .inl hempty
    | conflicting => exact .inl hempty
    | @created created text document hcreated _ hcreatedEmpty hread hvalid =>
      by_cases hne : row = created
      · subst hne
        exact .inr ⟨_, document, globResults_created_self hcreatedEmpty, hread, hvalid⟩
      · rw [globResults_created hbatch hcreated hrow hne hcreatedEmpty]
        exact .inl hempty
  · exact .inr ⟨file, document, hstored.outcome hbatch hrow ho⟩

end

end TradingLab.Factory
