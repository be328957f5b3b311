import TradingLab.Coordinator.Worker

/-!
# What a request does on its own

Without interference, a request of an authorized node about a batch makes one
update: it is accepted when the update selects the batch's row.
-/

namespace TradingLab.Coordinator

open Interleaving Prog Machine

def accepted : Outcome → Bool
  | .ok reply => reply.status == 200
  | .error _ => false

/-- The request makes the update, and is accepted when the update selects a row. -/
structure Does (p : Handler Outcome) (s : Store) (u : Update) : Prop where
  accepted : accepted (machine.result p s).1 = (s.batch? u.batchCode).any u.selects
  batches : (machine.result p s).2.batches = (s.update u).batches

def Authorized (s : Store) (authorization nodeId : String) : Prop :=
  (machine.result (nodeAuthorized authorization nodeId) s).1 = true

theorem result_nodeAuthorized_store (authorization nodeId : String) (s : Store) :
    (machine.result (nodeAuthorized authorization nodeId) s).2 = s := by
  unfold nodeAuthorized
  split
  · dsimp only
    split
    · rfl
    · rfl
  · rfl

variable {u : Update}

theorem update_batches_of_false {s : Store}
    (h : (s.batch? u.batchCode).any u.selects = false) : (s.update u).batches = s.batches := by
  have hrows : ∀ r ∈ s.batches.rows, u.selects r = false := by
    intro r hr
    cases hs : u.selects r with
    | false => rfl
    | true =>
      have hfind : s.batch? u.batchCode = some r := by
        rw [← Update.batchCode_of_selects hs]
        exact Table.find?_of_mem hr
      rw [hfind, Option.any_some, hs] at h
      exact h
  exact Table.update_eq_self u.batchCode_sets hrows

theorem update_batches_of_none {s : Store} (h : s.batch? u.batchCode = none) :
    (s.update u).batches = s.batches := by
  apply update_batches_of_false
  rw [h]
  rfl

theorem result_changesOne (u : Update) (s : Store) :
    machine.result (changesOne u) s = ((s.batch? u.batchCode).any u.selects, s.update u) := by
  have hchanges := changes_update s u
  unfold changesOne await
  rw [perform_bind, result_op, hchanges]
  split
  · rename_i h
    rw [h]
    rfl
  · rename_i h
    rw [Bool.not_eq_true] at h
    rw [h]
    rfl

theorem does_changesOne {s : Store} {text : String} {status : ℕ} {rest : Handler Outcome}
    (hstatus : (status == 200) = false)
    (hrest : ∀ s, accepted (machine.result rest s).1 = true ∧
      (machine.result rest s).2.batches = s.batches) :
    Does (do if !(← changesOne u) then refuse text status else rest) s u := by
  have key : machine.result (do if !(← changesOne u) then refuse text status else rest) s =
      machine.result (if !(s.batch? u.batchCode).any u.selects then refuse text status else rest)
        (s.update u) := by
    rw [result_bind, result_changesOne]
  cases hsel : (s.batch? u.batchCode).any u.selects with
  | true =>
    rw [hsel] at key
    refine ⟨?_, ?_⟩
    · rw [key, hsel]
      exact (hrest _).1
    · rw [key]
      exact (hrest _).2
  | false =>
    rw [hsel] at key
    refine ⟨?_, ?_⟩
    · rw [key, hsel]
      exact hstatus
    · rw [key]
      rfl

theorem does_refuse {s : Store} {text : String} {status : ℕ}
    (hstatus : (status == 200) = false) (h : s.batch? u.batchCode = none) :
    Does (refuse text status) s u where
  accepted := by
    rw [h]
    exact hstatus
  batches := (update_batches_of_none h).symm

theorem does_now {s : Store} {f : ℤ → Handler Outcome}
    (h : Does (f s.clock) s u) : Does (await .now >>= f) s u := ⟨h.accepted, h.batches⟩

theorem does_authorized {authorization nodeId : String} {s : Store}
    (h : Authorized s authorization nodeId) {f : Bool → Handler Outcome} (hf : Does (f true) s u) :
    Does (nodeAuthorized authorization nodeId >>= f) s u := by
  have key : machine.result (nodeAuthorized authorization nodeId >>= f) s =
      machine.result (f true) s := by
    rw [result_bind, h, result_nodeAuthorized_store]
  refine ⟨?_, ?_⟩
  · rw [key]
    exact hf.accepted
  · rw [key]
    exact hf.batches

theorem does_nodeCall {authorization : String} {body : Body} {s : Store}
    {handler : Body → String → String → Handler Outcome}
    (hauth : Authorized s authorization (body.nodeId.getD ""))
    (hcode : isBatchCode (body.batchCode.getD "") = false → s.batch? u.batchCode = none)
    (h : Does (handler body (body.nodeId.getD "") (body.batchCode.getD "")) s u) :
    Does (nodeCall ⟨authorization, some body⟩ handler) s u := by
  refine does_authorized hauth ?_
  cases hb : isBatchCode (body.batchCode.getD "") with
  | true => exact h
  | false => exact does_refuse rfl (hcode hb)

theorem logged (type : String) (nodeId batchCode : Option String) (payload : Json) (now : ℤ)
    (reply : List (String × Json)) (s : Store) :
    let rest : Handler Outcome := do
      event type nodeId batchCode payload now
      pure (.ok (response reply 200))
    accepted (machine.result rest s).1 = true ∧ (machine.result rest s).2.batches = s.batches :=
  ⟨rfl, rfl⟩

section
variable {authorization : String} {body : Body} {nodeId code : String} {s : Store}
    (hnode : body.nodeId = some nodeId) (hbatch : body.batchCode = some code)
    (hauth : Authorized s authorization nodeId)
    (hcode : isBatchCode code = false → s.batch? code = none)

include hnode hbatch hauth hcode

theorem does_heartbeat {leaseSeconds : ℤ} (hlease : body.leaseSeconds.leaseSeconds? = some leaseSeconds) :
    Does (handleHeartbeat ⟨authorization, some body⟩) s
      (.heartbeat (s.clock + leaseSeconds * 1000) s.clock code nodeId) := by
  apply does_nodeCall
  · rw [hnode]
    exact hauth
  · rw [hbatch]
    exact hcode
  · rw [hlease, hnode, hbatch]
    exact does_now (does_changesOne rfl fun s => ⟨rfl, rfl⟩)

theorem does_pauseRequest :
    Does (handlePauseRequest ⟨authorization, some body⟩) s (.pauseRequest s.clock code nodeId) := by
  apply does_nodeCall
  · rw [hnode]
    exact hauth
  · rw [hbatch]
    exact hcode
  · rw [hnode, hbatch]
    exact does_now (does_changesOne rfl (logged _ _ _ _ _ _))

theorem does_paused :
    Does (handlePaused ⟨authorization, some body⟩) s (.paused s.clock code nodeId) := by
  apply does_nodeCall
  · rw [hnode]
    exact hauth
  · rw [hbatch]
    exact hcode
  · rw [hnode, hbatch]
    exact does_now (does_changesOne rfl (logged _ _ _ _ _ _))

theorem does_release :
    Does (handleRelease ⟨authorization, some body⟩) s (.release s.clock code nodeId) := by
  apply does_nodeCall
  · rw [hnode]
    exact hauth
  · rw [hbatch]
    exact hcode
  · rw [hnode, hbatch]
    exact does_now (does_changesOne rfl (logged _ _ _ _ _ _))

theorem does_resume {leaseSeconds : ℤ} (hlease : body.leaseSeconds.leaseSeconds? = some leaseSeconds) :
    Does (handleResume ⟨authorization, some body⟩) s
      (.resume (s.clock + leaseSeconds * 1000) s.clock code nodeId) := by
  have hnamed : Authorized s authorization (body.nodeId.getD "") := by
    rw [hnode]
    exact hauth
  apply does_authorized hnamed
  have hfilter : (some leaseSeconds).filter (fun _ => isBatchCode code) =
      if isBatchCode code then some leaseSeconds else none := rfl
  rw [hlease, hnode, hbatch]
  dsimp only [Option.getD_some]
  rw [hfilter]
  cases hb : isBatchCode code with
  | true => exact does_now (does_changesOne rfl (logged _ _ _ _ _ _))
  | false => exact does_refuse rfl (hcode hb)

end

section
variable {env : Env} {authorization : String} {body : Body} {code manifestSha : String} {s : Store}
    (hadmin : adminAuthorized env authorization = true)
    (hbatch : body.batchCode = some code) (hsha : body.resultManifestSha256 = some manifestSha)

include hadmin hbatch hsha

theorem does_ingested (hcode : isBatchCode code = true)
    (hhex : Sha256.isHexDigest manifestSha = true) :
    Does (handleIngested env ⟨authorization, some body⟩) s (.ingested s.clock code manifestSha) := by
  unfold handleIngested parseJson
  simp only [hadmin, hbatch, hsha, Option.getD_some, hcode, hhex, Bool.not_true, Bool.or_self,
    Bool.false_eq_true, if_false]
  exact does_now (does_changesOne rfl (logged _ _ _ _ _ _))

theorem ingested_invalid (h : isBatchCode code = false ∨ Sha256.isHexDigest manifestSha = false) :
    machine.result (handleIngested env ⟨authorization, some body⟩) s =
      (.ok (response [("status", .str "INVALID_INGEST")] 400), s) := by
  have hbad : (!isBatchCode code || !Sha256.isHexDigest manifestSha) = true := by
    rcases h with h | h
    · rw [h, Bool.not_false, Bool.true_or]
    · rw [h, Bool.not_false, Bool.or_true]
  unfold handleIngested parseJson
  simp only [hadmin, hbatch, hsha, Option.getD_some, hbad, Bool.not_true, Bool.false_eq_true,
    if_false, if_true]
  rfl

end

section
variable {authorization : String} {body : Body} {nodeId : String} {s : Store}
    (hnode : body.nodeId = some nodeId) (hauth : Authorized s authorization nodeId)
    (hlease : body.leaseSeconds.leaseSeconds? = none)

include hnode hauth hlease

theorem resume_refused :
    machine.result (handleResume ⟨authorization, some body⟩) s =
      (.ok (response [("status", .str "INVALID_RESUME")] 400), s) := by
  unfold handleResume parseJson
  dsimp only
  rw [hnode, hlease]
  dsimp only [Option.getD_some]
  rw [result_bind, hauth, result_nodeAuthorized_store]
  rfl

theorem claim_refused :
    machine.result (handleClaim ⟨authorization, some body⟩) s =
      (.ok (response [("status", .str "INVALID_LEASE")] 400), s) := by
  unfold handleClaim parseJson
  dsimp only
  rw [hnode, hlease]
  dsimp only [Option.getD_some]
  rw [result_bind, hauth, result_nodeAuthorized_store]
  rfl

end

/-- A claim of one batch makes its update, and answers when the update selects the row. -/
theorem result_claimSpecific (nodeId code : String) (leaseSeconds now : ℤ) (s : Store) :
    let u := Update.claim nodeId (now + leaseSeconds * 1000) now code
    ((machine.result (claimSpecific nodeId code leaseSeconds now) s).1.isSome =
        (s.batch? code).any u.selects) ∧
      (machine.result (claimSpecific nodeId code leaseSeconds now) s).2 = s.update u := by
  intro u
  have key : machine.result (claimSpecific nodeId code leaseSeconds now) s =
      machine.result (if (s.batch? code).any u.selects then await (.selectClaimed code)
        else pure none) (s.update u) := by
    unfold claimSpecific
    dsimp only
    rw [result_bind, result_changesOne]
    rfl
  rw [key]
  cases hsel : (s.batch? code).any u.selects with
  | false => exact ⟨rfl, rfl⟩
  | true =>
    refine ⟨?_, rfl⟩
    have hrow : (s.update u).batch? code = (s.batch? code).map u.apply :=
      batch?_after_update s u code
    change (((s.update u).batch? code).map _).isSome = true
    rw [hrow, Option.isSome_map, Option.isSome_map]
    cases hr : s.batch? code with
    | none =>
      rw [hr] at hsel
      cases hsel
    | some r => rfl

theorem candidate_selects {s : Store} {now : ℤ} {code : String} (h : s.candidate now = some code)
    (nodeId : String) (leaseUntil : ℤ) :
    (s.batch? code).any (Update.claim nodeId leaseUntil now code).selects = true := by
  unfold Store.candidate at h
  dsimp only at h
  have hmem := List.mem_of_mem_head? h
  rw [List.mem_insertionSort, List.mem_map] at hmem
  obtain ⟨r, hr, rfl⟩ := hmem
  rw [List.mem_filter] at hr
  have hfind : s.batch? r.batchCode = some r := Table.find?_of_mem hr.1
  have hstate := of_decide_eq_true hr.2
  rw [hfind, Option.any_some]
  rcases hstate with hst | ⟨hst, hexp⟩
  · simp [Update.selects, hst]
  · simp [Update.selects, hst, hexp]

/-- The batch that a claim gets, when none is interfered with. -/
def claimTarget (s : Store) (requested : Option String) (now : ℤ) : Option String :=
  match requested with
  | some code => some code
  | none => s.candidate now

theorem result_claimRequested (nodeId : String) (requested : Option String)
    (leaseSeconds now : ℤ) (s : Store) :
    let r := machine.result (claimRequested nodeId requested leaseSeconds now) s
    match claimTarget s requested now with
    | none => r = (none, s)
    | some code =>
        let u := Update.claim nodeId (now + leaseSeconds * 1000) now code
        r.1.isSome = (s.batch? code).any u.selects ∧ r.2 = s.update u := by
  cases requested with
  | some code => exact result_claimSpecific nodeId code leaseSeconds now s
  | none =>
    have hauto : claimRequested nodeId none leaseSeconds now =
        claimAuto nodeId leaseSeconds now (7 + 1) := rfl
    have hexec : machine.exec (.selectCandidate now) s = (s.candidate now, s) := rfl
    dsimp only [claimTarget]
    rw [hauto, claimAuto, await, perform_bind, result_op, after, hexec]
    dsimp only
    cases hc : s.candidate now with
    | none => rfl
    | some code =>
      have hsel := candidate_selects hc nodeId (now + leaseSeconds * 1000)
      have hspec := result_claimSpecific nodeId code leaseSeconds now s
      dsimp only at hspec ⊢
      rw [hsel] at hspec ⊢
      rw [result_bind]
      cases hr : (machine.result (claimSpecific nodeId code leaseSeconds now) s).1 with
      | none =>
        rw [hr] at hspec
        cases hspec.1
      | some claimed => exact ⟨rfl, hspec.2⟩

/-- What a claim does after its checks, when it reads the time. -/
def claimNow (nodeId : String) (requested : Option String) (leaseSeconds now : ℤ) :
    Handler Outcome := do
  touchNode nodeId now
  match ← claimRequested nodeId requested leaseSeconds now with
  | none =>
      refuse (if requested.isSome then "BATCH_UNAVAILABLE" else "NO_AVAILABLE_BATCH") 409
  | some claimed =>
      let plan ← planSha
      let payload := claimedReply plan nodeId claimed
      event "BATCH_CLAIMED" (some nodeId) (some claimed.batchCode) (.dict payload) now
      pure (.ok (response payload 200))

theorem result_claimNow (nodeId : String) (requested : Option String) (leaseSeconds now : ℤ)
    (s : Store) :
    let claimed := machine.result (claimRequested nodeId requested leaseSeconds now)
      (s.touchNode nodeId now)
    accepted (machine.result (claimNow nodeId requested leaseSeconds now) s).1 =
        claimed.1.isSome ∧
      (machine.result (claimNow nodeId requested leaseSeconds now) s).2.batches =
        claimed.2.batches := by
  intro claimed
  have key : machine.result (claimNow nodeId requested leaseSeconds now) s =
      machine.result (match claimed.1 with
        | none => refuse (if requested.isSome then "BATCH_UNAVAILABLE" else "NO_AVAILABLE_BATCH") 409
        | some c => do
            let plan ← planSha
            let payload := claimedReply plan nodeId c
            event "BATCH_CLAIMED" (some nodeId) (some c.batchCode) (.dict payload) now
            pure (.ok (response payload 200))) claimed.2 := by
    unfold claimNow touchNode await
    rw [perform_bind, result_op, result_bind]
    rfl
  rw [key]
  cases claimed.1 with
  | none => exact ⟨rfl, rfl⟩
  | some c => exact ⟨rfl, rfl⟩

/-- A claim makes its update on the batch that it gets. -/
theorem does_claim {authorization : String} {body : Body} {nodeId : String} {leaseSeconds : ℤ}
    {s : Store} (hnode : body.nodeId = some nodeId) (hauth : Authorized s authorization nodeId)
    (hlease : body.leaseSeconds.leaseSeconds? = some leaseSeconds)
    (hcode : ∀ code, body.batchCode = some code → isBatchCode code = false →
      s.batch? code = none) :
    match claimTarget s body.batchCode s.clock with
    | none => accepted (machine.result (handleClaim ⟨authorization, some body⟩) s).1 = false ∧
        (machine.result (handleClaim ⟨authorization, some body⟩) s).2.batches = s.batches
    | some code => Does (handleClaim ⟨authorization, some body⟩) s
        (.claim nodeId (s.clock + leaseSeconds * 1000) s.clock code) := by
  have hhandler : machine.result (handleClaim ⟨authorization, some body⟩) s =
      machine.result (if body.batchCode.any fun code => !isBatchCode code then
          refuse "INVALID_BATCH" 400
        else do
          let now ← await .now
          claimNow nodeId body.batchCode leaseSeconds now) s := by
    unfold handleClaim parseJson
    dsimp only
    rw [hnode, hlease]
    dsimp only [Option.getD_some]
    rw [result_bind, hauth, result_nodeAuthorized_store]
    rfl
  cases hbad : body.batchCode.any fun code => !isBatchCode code with
  | true =>
    rw [hbad] at hhandler
    cases hbc : body.batchCode with
    | none =>
      rw [hbc] at hbad
      cases hbad
    | some code =>
      have hnone : s.batch? code = none := by
        apply hcode code hbc
        rw [hbc, Option.any_some, Bool.not_eq_true'] at hbad
        exact hbad
      refine ⟨?_, ?_⟩
      · rw [hhandler]
        change false = (s.batch? code).any _
        rw [hnone]
        rfl
      · rw [hhandler]
        exact (update_batches_of_none hnone).symm
  | false =>
    rw [hbad] at hhandler
    have hnow := result_claimNow nodeId body.batchCode leaseSeconds s.clock s
    have hreq := result_claimRequested nodeId body.batchCode leaseSeconds s.clock
      (s.touchNode nodeId s.clock)
    have hsame : machine.result (handleClaim ⟨authorization, some body⟩) s =
        machine.result (claimNow nodeId body.batchCode leaseSeconds s.clock) s := hhandler
    have htarget : claimTarget (s.touchNode nodeId s.clock) body.batchCode s.clock =
        claimTarget s body.batchCode s.clock := rfl
    dsimp only at hnow hreq
    rw [htarget] at hreq
    cases ht : claimTarget s body.batchCode s.clock with
    | none =>
      rw [ht] at hreq
      dsimp only at hreq ⊢
      rw [hsame, hnow.1, hnow.2, hreq]
      exact ⟨rfl, rfl⟩
    | some code =>
      rw [ht] at hreq
      dsimp only at hreq ⊢
      refine ⟨?_, ?_⟩
      · rw [hsame, hnow.1, hreq.1]
        rfl
      · rw [hsame, hnow.2, hreq.2]
        rfl

end TradingLab.Coordinator
