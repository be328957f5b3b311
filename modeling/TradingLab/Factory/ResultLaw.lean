import TradingLab.Factory.ResultRun

/-!
# The law of the result store

What holds of the store after every run of writes, and what a complete batch
still needs for its manifest.
-/

namespace TradingLab.Factory

open List

/-- What holds of a store after a run. -/
structure ResultStoreLaw (plan : FrozenPlan) (code : String) (frozen : PlanBatch) (files : Files) :
    Prop where
  /-- A candidate has at most one result file. -/
  atMostOne : ∀ row ∈ frozen.candidates, (globResults files (resultDir code row)).length ≤ 1
  /-- A rerun changes nothing, and is accepted when it is the same result. -/
  rerun : ∀ row ∈ frozen.candidates, ∀ file document,
    Stored plan.toPlan code files row file document → ∀ c : ResultCall,
      c.candidateId = row.candidateId →
        (c.write plan.toPlan code).after files = files ∧
          ((c.write plan.toPlan code).Returns files ↔
            c.sha plan.toPlan code = .ok (artifactSha document))
  /-- A worker meets every pending candidate once, and is then told that there is none. -/
  visits : ∀ visited final, Visits plan.toPlan code files visited final →
    visited = (pendingCandidates code frozen.candidates files).map PlanCandidate.candidateId ∧
      nextCandidate final plan.toPlan code = .ok none
  /-- The result of the next candidate is accepted whenever it is a result of that candidate. -/
  next : ∀ row, nextCandidate files plan.toPlan code = .ok (some row) → ∀ c : ResultCall,
    c.candidateId = row.candidateId → ∀ sha, c.sha plan.toPlan code = .ok sha →
      (c.write plan.toPlan code).Returns files
  /-- The batch is complete when every candidate has a valid result. -/
  status : ∃ s, status files plan.toPlan code = .ok s ∧
    (s.status = "COMPLETE" ↔
      ∀ row ∈ frozen.candidates, ∃ file document, Stored plan.toPlan code files row file document)
  /-- A manifest is built when, besides, the results agree on the code and the input. -/
  manifest : (∃ m, buildBatchManifest files plan.toPlan code = .ok m) ↔
    (∀ row ∈ frozen.candidates, ∃ file document, Stored plan.toPlan code files row file document) ∧
      ∃ gitSha runnerInputSha256,
        SameIdentities plan.toPlan code frozen.candidates files gitSha runnerInputSha256
  /-- The manifest lists the candidates of the batch in order, with their digests. -/
  artifacts : ∀ m, buildBatchManifest files plan.toPlan code = .ok m → ∃ sha,
    (m.lookup "artifacts").bind items? = some (frozen.candidates.map (artifactEntry sha)) ∧
      ∀ row ∈ frozen.candidates, ∀ file document,
        Stored plan.toPlan code files row file document → sha row = artifactSha document

variable {σ ε α : Type} {m : Method σ ε α} {s s' : σ} {rows : List PlanCandidate} {files : Files}
  {row : PlanCandidate}

theorem Method.returns_of_call {a : α} (h : m.call s = (.ok a, s')) : m.Returns s := ⟨a, by rw [h]⟩

theorem Method.not_returns_of_call {e : ε} (h : m.call s = (.error e, s')) : ¬ m.Returns s := by
  rintro ⟨a, ha⟩
  rw [h] at ha
  cases ha

theorem pending_eq_nil {plan : Plan} {code : String}
    (h : Sound plan code rows files) : pendingCandidates code rows files = [] ↔
      ∀ row ∈ rows, ∃ file document, Stored plan code files row file document := by
  rw [pendingCandidates, filter_eq_nil_iff]
  constructor
  · intro hnone row hrow
    rcases h row hrow with hempty | hstored
    · exact (hnone row hrow (isEmpty_iff.mpr hempty)).elim
    · exact hstored
  · intro hall row hrow hempty
    obtain ⟨file, document, hstored⟩ := hall row hrow
    have honly := hstored.only
    rw [isEmpty_iff.mp hempty] at honly
    cases honly

theorem exists_storedAll {plan : Plan} {code : String}
    (h : ∀ row ∈ rows, ∃ file document, Stored plan code files row file document) :
    ∃ documents, StoredAll plan code files rows documents := by
  induction rows with
  | nil => exact ⟨[], .nil⟩
  | cons row rows ih =>
    obtain ⟨file, document, hstored⟩ := h row mem_cons_self
    obtain ⟨documents, hall⟩ := ih fun r hr => h r (mem_cons_of_mem _ hr)
    exact ⟨document :: documents, .cons ⟨file, hstored⟩ hall⟩

section
variable {plan : FrozenPlan} {code : String} {frozen : PlanBatch}
    (hbatch : batch plan.toPlan code = .ok frozen)
include hbatch

variable {files : Files} {row : PlanCandidate} {c : ResultCall}

/-- A call for a stored candidate changes nothing, and compares the digests. -/
theorem rerun_of_stored (h : Sound plan.toPlan code frozen.candidates files)
    (hrow : row ∈ frozen.candidates) {file : File} {document : JsonMembers}
    (hstored : Stored plan.toPlan code files row file document)
    (hid : c.candidateId = row.candidateId) :
    (c.write plan.toPlan code).after files = files ∧
      ((c.write plan.toPlan code).Returns files ↔
        c.sha plan.toPlan code = .ok (artifactSha document)) := by
  have hsame : ∀ other ∈ frozen.candidates, other.candidateId = c.candidateId → other = row :=
    fun other hother ho => inj_on_of_nodup_map (nodup_candidateIds hbatch) hother hrow
      (ho.trans hid)
  have ho := outcome hbatch h c
  generalize hafter : (c.write plan.toPlan code).after files = files' at ho ⊢
  cases ho with
  | refused hsha hcall =>
    refine ⟨rfl, fun hr => (Method.not_returns_of_call hcall hr).elim, fun hok => ?_⟩
    rw [hsha] at hok
    cases hok
  | repeated hother hotherId hotherStored hsha hcall =>
    rw [hsame _ hother hotherId] at hotherStored
    rw [hstored.unique hotherStored]
    exact ⟨rfl, fun _ => hsha, fun _ => Method.returns_of_call hcall⟩
  | conflicting hother hotherId hotherStored hsha hne hcall =>
    rw [hsame _ hother hotherId] at hotherStored
    rw [hstored.unique hotherStored]
    refine ⟨rfl, fun hr => (Method.not_returns_of_call hcall hr).elim, fun hok => ?_⟩
    rw [hsha] at hok
    exact (hne (Except.ok.inj hok)).elim
  | created hother hotherId hempty =>
    rw [hsame _ hother hotherId] at hempty
    have honly := hstored.only
    rw [hempty] at honly
    cases honly

theorem returns_of_pending (h : Sound plan.toPlan code frozen.candidates files)
    (hrow : row ∈ frozen.candidates)
    (hempty : globResults files (resultDir code row) = [])
    (hid : c.candidateId = row.candidateId) {sha : String}
    (hsha : c.sha plan.toPlan code = .ok sha) : (c.write plan.toPlan code).Returns files := by
  have hsame : ∀ other ∈ frozen.candidates, other.candidateId = c.candidateId → other = row :=
    fun other hother ho => inj_on_of_nodup_map (nodup_candidateIds hbatch) hother hrow
      (ho.trans hid)
  have ho := outcome hbatch h c
  generalize (c.write plan.toPlan code).after files = files' at ho
  cases ho with
  | refused herror =>
    rw [hsha] at herror
    cases herror
  | repeated _ _ _ _ hcall => exact Method.returns_of_call hcall
  | conflicting hother hotherId hstored =>
    rw [hsame _ hother hotherId] at hstored
    have honly := hstored.only
    rw [hempty] at honly
    cases honly
  | created _ _ _ _ _ _ _ _ _ hcall => exact Method.returns_of_call hcall

theorem law_of_running (h : Running plan.toPlan code frozen.candidates files) :
    ResultStoreLaw plan code frozen files where
  atMostOne row hrow := by
    rcases h.sound row hrow with hempty | ⟨file, document, hstored⟩
    · rw [hempty]
      exact Nat.zero_le 1
    · rw [hstored.only]
      exact Nat.le_refl 1
  rerun _ hrow _ _ hstored _ hid := rerun_of_stored hbatch h.sound hrow hstored hid
  visits visited final hv := by
    obtain ⟨hvisited, -, hnone⟩ := visits_pending hbatch hv h
    exact ⟨hvisited, hnone⟩
  next row hnext c hid sha hsha := by
    rw [nextCandidate_eq hbatch h] at hnext
    have hmem : row ∈ pendingCandidates code frozen.candidates files :=
      mem_of_head? (Except.ok.inj hnext)
    obtain ⟨hrow, hempty⟩ := mem_filter.mp hmem
    exact returns_of_pending hbatch h.sound hrow (isEmpty_iff.mp hempty) hid hsha
  status := by
    obtain ⟨s, hs, hcomplete⟩ := status_eq hbatch h
    exact ⟨s, hs, hcomplete.trans (pending_eq_nil h.sound)⟩
  manifest := by
    constructor
    · rintro ⟨m, hm⟩
      obtain ⟨documents, gitSha, runnerInputSha256, hall, hsame, -⟩ :=
        (buildBatchManifest_eq_ok hbatch).mp hm
      refine ⟨fun row hrow => ?_, gitSha, runnerInputSha256, hsame⟩
      obtain ⟨document, -, file, hstored⟩ := hall.mem_left hrow
      exact ⟨file, document, hstored⟩
    · rintro ⟨hall, gitSha, runnerInputSha256, hsame⟩
      obtain ⟨documents, hdocuments⟩ := exists_storedAll hall
      exact ⟨_, (buildBatchManifest_eq_ok hbatch).mpr
        ⟨documents, gitSha, runnerInputSha256, hdocuments, hsame, rfl⟩⟩
  artifacts m hm := by
    obtain ⟨documents, gitSha, runnerInputSha256, hall, -, rfl⟩ :=
      (buildBatchManifest_eq_ok hbatch).mp hm
    refine ⟨artifactShaIn documents, ?_, fun row hrow file document hstored =>
      artifactShaIn_eq hbatch hall hrow hstored⟩
    simp [batchManifest, manifestBase, JsonMembers.lookup_insert, items?, Json.list]

end

namespace ResultCall

def perform (plan : Plan) (code : String) (c : ResultCall) : RootCall Unit := do
  let _ ← c.write plan code
  pure ()

theorem call_perform (plan : Plan) (code : String) (c : ResultCall) (files : Files) :
    (c.perform plan code).call files =
      (((c.write plan code).call files).1.map fun _ => (), ((c.write plan code).call files).2) := by
  unfold perform
  rw [Method.call_bind]
  rcases (c.write plan code).call files with ⟨r, files'⟩
  cases r with
  | ok written => rfl
  | error e => rfl

theorem after_perform (plan : Plan) (code : String) (c : ResultCall) (files : Files) :
    (c.perform plan code).after files = (c.write plan code).after files := by
  rw [Method.after, call_perform]
  rfl

theorem returns_perform (plan : Plan) (code : String) (c : ResultCall) (files : Files) :
    (c.perform plan code).Returns files ↔ (c.write plan code).Returns files := by
  unfold Method.Returns
  rw [call_perform]
  cases ((c.write plan code).call files).1 with
  | ok written =>
    constructor
    · intro _
      exact ⟨written, rfl⟩
    · intro _
      exact ⟨(), rfl⟩
  | error e =>
    constructor
    · rintro ⟨u, hu⟩
      cases hu
    · rintro ⟨w, hw⟩
      cases hw

theorem sha_node {plan : Plan} {code : String} {c : ResultCall} {sha nodeId : String}
    (h : c.sha plan code = .ok sha) (hnode : isNode nodeId = true) :
    { c with nodeId := nodeId }.sha plan code = .ok sha := by
  unfold ResultCall.sha ResultCall.identity at h ⊢
  rw [bind_eq_ok] at h
  obtain ⟨identity, hidentity, hdigest⟩ := h
  obtain ⟨rows, row, compact, hc, rfl⟩ := checkedIdentity_eq_ok.mp hidentity
  rw [bind_eq_ok]
  exact ⟨_, checkedIdentity_eq_ok.mpr ⟨rows, row, compact,
    ⟨hnode, hc.gitSha, hc.runnerInput, hc.listed, hc.found, hc.stored, hc.candidate, hc.spec⟩, rfl⟩,
    hdigest⟩

end ResultCall

/-- The result of an accepted call is stored under its digest. -/
def Kept (plan : Plan) (code : String) (rows : List PlanCandidate) (files : Files)
    (c : ResultCall) : Prop :=
  ∃ row ∈ rows, row.candidateId = c.candidateId ∧ ∃ file document,
    Stored plan code files row file document ∧ c.sha plan code = .ok (artifactSha document)

section
variable {plan : FrozenPlan} {code : String} {frozen : PlanBatch}
    (hbatch : batch plan.toPlan code = .ok frozen)
include hbatch

theorem kept_of_returns {files : Files} (h : Sound plan.toPlan code frozen.candidates files)
    {c : ResultCall} (hreturns : (c.write plan.toPlan code).Returns files) :
    Kept plan.toPlan code frozen.candidates ((c.write plan.toPlan code).after files) c := by
  have ho := outcome hbatch h c
  generalize (c.write plan.toPlan code).after files = files' at ho ⊢
  cases ho with
  | refused _ hcall => exact (Method.not_returns_of_call hcall hreturns).elim
  | repeated hrow hid hstored hsha => exact ⟨_, hrow, hid, _, _, hstored, hsha⟩
  | conflicting _ _ _ _ _ hcall => exact (Method.not_returns_of_call hcall hreturns).elim
  | created hrow hid hempty hread hvalid _ _ _ hsha =>
    exact ⟨_, hrow, hid, _, _, ⟨globResults_created_self hempty, hread, hvalid⟩, hsha⟩

/-- Accepted calls stay stored over a whole run. -/
theorem running_run {start : Files} (h : Running plan.toPlan code frozen.candidates start)
    (calls : List ResultCall) :
    Running plan.toPlan code frozen.candidates
        (Method.run (ResultCall.perform plan.toPlan code) calls start) ∧
      ∀ c ∈ Method.accepted (ResultCall.perform plan.toPlan code) calls start,
        Kept plan.toPlan code frozen.candidates
          (Method.run (ResultCall.perform plan.toPlan code) calls start) c := by
  have keep : ∀ (t : Files) (c d : ResultCall), Running plan.toPlan code frozen.candidates t →
      Kept plan.toPlan code frozen.candidates t d →
      Kept plan.toPlan code frozen.candidates ((c.write plan.toPlan code).after t) d := by
    rintro t c d ht ⟨row, hrow, hid, file, document, hstored, hsha⟩
    exact ⟨row, hrow, hid, file, document,
      hstored.outcome hbatch hrow (outcome hbatch ht.sound c), hsha⟩
  apply Method.run_accepted (I := fun cs t => Running plan.toPlan code frozen.candidates t ∧
    ∀ c ∈ cs, Kept plan.toPlan code frozen.candidates t c)
  · exact ⟨h, nofun⟩
  · rintro cs c t ⟨ht, hkept⟩ -
    rw [ResultCall.after_perform]
    exact ⟨ht.outcome hbatch (outcome hbatch ht.sound c), fun d hd => keep t c d ht (hkept d hd)⟩
  · rintro cs c t ⟨ht, hkept⟩ hreturns
    rw [ResultCall.after_perform]
    refine ⟨ht.outcome hbatch (outcome hbatch ht.sound c), fun d hd => ?_⟩
    rcases mem_append.mp hd with hd | hd
    · exact keep t c d ht (hkept d hd)
    · rw [mem_singleton.mp hd]
      exact kept_of_returns hbatch ht.sound ((ResultCall.returns_perform _ _ _ _).mp hreturns)

end

section
variable {plan : FrozenPlan} {code : String} {frozen : PlanBatch}
    (hbatch : batch plan.toPlan code = .ok frozen)
include hbatch

theorem stored_run {files : Files} (h : Running plan.toPlan code frozen.candidates files)
    (calls : List ResultCall) {row : PlanCandidate} (hrow : row ∈ frozen.candidates) {file : File}
    {document : JsonMembers} (hstored : Stored plan.toPlan code files row file document) :
    Stored plan.toPlan code (Method.run (ResultCall.perform plan.toPlan code) calls files) row file
      document := by
  induction calls generalizing files with
  | nil => exact hstored
  | cons c calls ih =>
    have ho := outcome hbatch h.sound c
    rw [Method.run_cons, ResultCall.after_perform]
    exact ih (h.outcome hbatch ho) (hstored.outcome hbatch hrow ho)

/-- Calls for different pending candidates are all stored, each with its own code. -/
theorem stored_of_calls {files : Files} (h : Running plan.toPlan code frozen.candidates files)
    {calls : List ResultCall} (hnodup : (calls.map ResultCall.candidateId).Nodup)
    (hcalls : ∀ c ∈ calls, ∃ sha, c.sha plan.toPlan code = .ok sha)
    (hpending : ∀ c ∈ calls, ∀ row ∈ frozen.candidates, row.candidateId = c.candidateId →
      globResults files (resultDir code row) = []) :
    ∀ c ∈ calls, ∃ row ∈ frozen.candidates, row.candidateId = c.candidateId ∧ ∃ file document,
      Stored plan.toPlan code (Method.run (ResultCall.perform plan.toPlan code) calls files) row file
        document ∧ textField document "git_sha" = c.gitSha := by
  induction calls generalizing files with
  | nil => nofun
  | cons d calls ih =>
    rw [map_cons, nodup_cons] at hnodup
    obtain ⟨sha, hsha⟩ := hcalls d mem_cons_self
    have ho := outcome hbatch h.sound d
    have hrunning := h.outcome hbatch ho
    rw [Method.run_cons, ResultCall.after_perform]
    generalize (d.write plan.toPlan code).after files = files' at ho hrunning
    cases ho with
    | refused herror =>
      rw [hsha] at herror
      cases herror
    | repeated hrow hid hstored =>
      have honly := hstored.only
      rw [hpending d mem_cons_self _ hrow hid] at honly
      cases honly
    | conflicting hrow hid hstored =>
      have honly := hstored.only
      rw [hpending d mem_cons_self _ hrow hid] at honly
      cases honly
    | @created row text document hrow hid hempty hread hvalid hgit =>
      intro c hc
      rcases mem_cons.mp hc with rfl | hc
      · refine ⟨row, hrow, hid, _, document, stored_run hbatch hrunning calls hrow
          ⟨globResults_created_self hempty, hread, hvalid⟩, ?_⟩
        rw [textField, hgit]
        rfl
      · apply ih hrunning hnodup.2 (fun e he => hcalls e (mem_cons_of_mem _ he)) _ c hc
        intro e he other hother hotherId
        have hne : other ≠ row := by
          rintro rfl
          apply hnodup.1
          rw [← hid, hotherId]
          exact mem_map_of_mem he
        rw [globResults_created hbatch hrow hother hne hempty]
        exact hpending e (mem_cons_of_mem _ he) other hother hotherId

end

theorem fresh_empty (code : String) (rows : List PlanCandidate) :
    Fresh code rows Table.empty := ⟨fun _ _ => rfl, rfl⟩

/-- A call that writes the sample result of a candidate, computed with some code. -/
def sampleCall (gitSha : String) (row : PlanCandidate) : ResultCall where
  candidateId := row.candidateId
  nodeId := "NODE-A1"
  gitSha := gitSha
  runnerInputSha256 := String.ofList (List.replicate 64 'a')
  result := sampleResult row
  held := held_sampleResult row

theorem sha_sampleCall {gitSha : String} (hgit : isGitSha gitSha = true)
    (hrow : row ∈ sampleBatch.candidates) :
    ∃ sha, (sampleCall gitSha row).sha sampleFrozenPlan.toPlan "B001" = .ok sha := by
  have hnode : isNode "NODE-A1" = true := by decide
  have hrunner : Sha256.isHexDigest (String.ofList (replicate 64 'a')) = true := by decide
  have hidentity : (sampleCall gitSha row).identity sampleFrozenPlan.toPlan "B001" =
      .ok (resultIdentity sampleFrozenPlan.toPlan "B001" row gitSha
        (String.ofList (replicate 64 'a')) (sampleResult row)) := by
    apply checkedIdentity_eq_ok.mpr
    have hid : (sampleResult row).lookup "candidate_id" = some (.str row.candidateId) := by
      rw [lookup_sampleResult, if_neg (by decide)]
      rfl
    have hspec : (sampleResult row).lookup "candidate_spec_sha256" =
        some (.str row.candidateSpecSha256) := by
      rw [lookup_sampleResult, if_neg (by decide)]
      rfl
    exact ⟨_, row, sampleResult row, checkedIdentity_of_storage batch_sample hrow hnode hgit
      hrunner (storageResult_sample row) hid hspec, rfl⟩
  refine ⟨(Json.object (resultIdentity sampleFrozenPlan.toPlan "B001" row gitSha
    (String.ofList (replicate 64 'a')) (sampleResult row))).normal.digest, ?_⟩
  rw [ResultCall.sha, hidentity, ok_bind]
  apply digestText_eq_ok.mpr
  refine ⟨?_, ?_, rfl⟩
  · exact finite_resultIdentity _ _ _ _ _ (finite_sampleResult row)
  · exact short_resultIdentity _ _ _ _ _ (short_sampleResult row)

/-- The results of a batch, the first one computed with other code than the rest. -/
def mixedCalls : List ResultCall :=
  sampleBatch.candidates.map fun row =>
    sampleCall (String.ofList (List.replicate 40
      (if row.candidateId = "MCF-PROD-001-000001" then 'a' else 'b'))) row

theorem sampleCandidate_mem {n : ℕ} (hn : n < logicalBatchSize) :
    sampleCandidate n ∈ sampleBatch.candidates := by
  rw [sampleBatch, candidates_batchOf, sampleRows, ← map_take, take_range]
  apply mem_map_of_mem
  rw [mem_range, lt_min_iff]
  unfold expectedExecutableCount logicalBatchSize at *
  omega

/-- Every result of the mixed run is stored, with the code it was computed with. -/
theorem stored_mixed (hrow : row ∈ sampleBatch.candidates) :
    ∃ file document, Stored sampleFrozenPlan.toPlan "B001"
        (Method.run (ResultCall.perform sampleFrozenPlan.toPlan "B001") mixedCalls Table.empty) row
        file document ∧
      textField document "git_sha" = String.ofList (List.replicate 40
        (if row.candidateId = "MCF-PROD-001-000001" then 'a' else 'b')) := by
  have hgit : ∀ c ∈ ['a', 'b'], isGitSha (String.ofList (replicate 40 c)) = true := by
    intro c hc
    fin_cases hc
    · decide
    · decide
  have hids : mixedCalls.map ResultCall.candidateId =
      sampleBatch.candidates.map PlanCandidate.candidateId := by
    rw [mixedCalls, map_map]
    rfl
  have hsha : ∀ c ∈ mixedCalls, ∃ sha, c.sha sampleFrozenPlan.toPlan "B001" = .ok sha := by
    intro c hc
    obtain ⟨r, hr, rfl⟩ := mem_map.mp hc
    apply sha_sampleCall (hgit _ _) hr
    split
    · decide
    · decide
  have hnodup : (mixedCalls.map ResultCall.candidateId).Nodup := by
    rw [hids]
    exact nodup_candidateIds batch_sample
  have hpending : ∀ c ∈ mixedCalls, ∀ r ∈ sampleBatch.candidates, r.candidateId = c.candidateId →
      globResults Table.empty (resultDir "B001" r) = [] := fun _ _ r hr _ =>
    (fresh_empty "B001" sampleBatch.candidates).empty r hr
  have hmem : sampleCall (String.ofList (replicate 40
      (if row.candidateId = "MCF-PROD-001-000001" then 'a' else 'b'))) row ∈ mixedCalls := by
    unfold mixedCalls
    exact mem_map_of_mem hrow
  obtain ⟨other, hother, hid, file, document, hstored, hcode⟩ :=
    stored_of_calls batch_sample (fresh_empty "B001" sampleBatch.candidates).running' hnodup hsha
      hpending _ hmem
  have hsame := inj_on_of_nodup_map (nodup_candidateIds batch_sample) hother hrow hid
  subst hsame
  exact ⟨file, document, hstored, hcode⟩

/-- On a root without results of the batch, every run of writes by any nodes keeps the law of the
store; a result that was accepted is accepted again from any node and changes nothing; and a
worker that starts there meets every candidate of the batch once. -/
theorem result_store_law (plan : FrozenPlan) {code : String} {frozen : PlanBatch}
    (hbatch : batch plan.toPlan code = .ok frozen) {start : Files}
    (hfresh : Fresh code frozen.candidates start) (calls : List ResultCall) :
    ResultStoreLaw plan code frozen
        (Method.run (ResultCall.perform plan.toPlan code) calls start) ∧
      (∀ c ∈ Method.accepted (ResultCall.perform plan.toPlan code) calls start,
        ∀ nodeId, isNode nodeId = true →
          ({ c with nodeId := nodeId }.write plan.toPlan code).Returns
              (Method.run (ResultCall.perform plan.toPlan code) calls start) ∧
            ({ c with nodeId := nodeId }.write plan.toPlan code).after
                (Method.run (ResultCall.perform plan.toPlan code) calls start) =
              Method.run (ResultCall.perform plan.toPlan code) calls start) ∧
      ∀ visited final, Visits plan.toPlan code start visited final →
        visited = frozen.candidates.map PlanCandidate.candidateId := by
  obtain ⟨hrunning, hkept⟩ := running_run hbatch hfresh.running' calls
  refine ⟨law_of_running hbatch hrunning, fun c hc nodeId hnode => ?_, fun visited final hv => ?_⟩
  · obtain ⟨row, hrow, hid, file, document, hstored, hsha⟩ := hkept c hc
    obtain ⟨hafter, hreturns⟩ := rerun_of_stored hbatch hrunning.sound hrow hstored
      (c := { c with nodeId := nodeId }) hid.symm
    exact ⟨hreturns.mpr (ResultCall.sha_node hsha hnode), hafter⟩
  · rw [(visits_pending hbatch hv hfresh.running').1, pendingCandidates, List.filter_eq_self.mpr]
    intro row hrow
    exact List.isEmpty_iff.mpr (hfresh.empty row hrow)

theorem result_store_law_sample :
    ResultStoreLaw sampleFrozenPlan "B001" sampleBatch
      (Method.run (ResultCall.perform sampleFrozenPlan.toPlan "B001") mixedCalls Table.empty) :=
  (result_store_law sampleFrozenPlan batch_sample (fresh_empty _ _) mixedCalls).1

/-- A complete batch whose results were computed with different code has no manifest. -/
theorem result_store_law_mixed :
    (∃ s, status (Method.run (ResultCall.perform sampleFrozenPlan.toPlan "B001") mixedCalls
          Table.empty) sampleFrozenPlan.toPlan "B001" = .ok s ∧ s.status = "COMPLETE") ∧
      ∀ m, buildBatchManifest (Method.run (ResultCall.perform sampleFrozenPlan.toPlan "B001")
        mixedCalls Table.empty) sampleFrozenPlan.toPlan "B001" ≠ .ok m := by
  have hlaw := law_of_running batch_sample
    (running_run batch_sample (fresh_empty "B001" sampleBatch.candidates).running' mixedCalls).1
  have hall : ∀ row ∈ sampleBatch.candidates, ∃ file document,
      Stored sampleFrozenPlan.toPlan "B001" (Method.run
        (ResultCall.perform sampleFrozenPlan.toPlan "B001") mixedCalls Table.empty) row file
        document := by
    intro row hrow
    obtain ⟨file, document, hstored, -⟩ := stored_mixed hrow
    exact ⟨file, document, hstored⟩
  constructor
  · obtain ⟨s, hs, hcomplete⟩ := hlaw.status
    exact ⟨s, hs, hcomplete.mpr hall⟩
  · intro m hm
    obtain ⟨-, gitSha, runnerInputSha256, hsame⟩ := hlaw.manifest.mp ⟨m, hm⟩
    have hfirst := sampleCandidate_mem (n := 0) (by decide)
    have hsecond := sampleCandidate_mem (n := 1) (by decide)
    obtain ⟨file, document, hstored, hcode⟩ := stored_mixed hfirst
    obtain ⟨file', document', hstored', hcode'⟩ := stored_mixed hsecond
    have heq := (hsame _ hfirst _ _ hstored).1.trans (hsame _ hsecond _ _ hstored').1.symm
    rw [hcode, hcode'] at heq
    revert heq
    decide

end TradingLab.Factory
