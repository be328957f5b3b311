import TradingLab.Coordinator.Worker

/-!
# Claims are made at a time that has passed

A claim reads the time once and compares leases with it later, when other
requests may have run. The time it compares with is then still one that the
clock has reached. No other request claims.
-/

namespace TradingLab.Coordinator

open Interleaving Prog

/-- The operation is no claim. -/
def NoClaim : Op → Prop
  | .update (.claim _ _ _ _) => False
  | _ => True

def ClaimsAt (time : ℤ) : Op → Prop
  | .update (.claim _ _ now _) => now = time
  | _ => True

def ClaimGuard (s : Store) : Op → Prop
  | .update (.claim _ _ now _) => now ≤ s.clock
  | _ => True

variable {s : Store} {o : Op} {α : Type} {p : Handler α}

theorem claimGuard_of_noClaim (h : NoClaim o) : ClaimGuard s o := by
  unfold NoClaim at h
  unfold ClaimGuard
  split at h
  · exact h.elim
  · trivial

theorem claimGuard_of_claimsAt {time : ℤ} (hs : time ≤ s.clock)
    (h : ClaimsAt time o) : ClaimGuard s o := by
  unfold ClaimsAt at h
  unfold ClaimGuard
  split
  · exact le_of_eq_of_le h hs
  · trivial

/-- The clock has not run backwards. -/
def Later (s t : Store) : Prop := s.clock ≤ t.clock

theorem rely_later : machine.Rely Later where
  refl := fun _ => le_rfl
  trans := fun h h' => le_trans h h'
  exec := fun s o => (clock_after s o).ge
  env := by
    intro s t h
    obtain ⟨clock, hle, rfl⟩ := h
    exact hle

/-- Every operation of the program meets the guard. -/
abbrev Meets {α : Type} (p : Handler α) (s : Store) : Prop :=
  machine.Wp Later ClaimGuard (fun _ _ => True) p s

theorem meets_of_noClaim (h : p.Issues NoClaim) (s : Store) :
    Meets p s :=
  Machine.wp_of_issues rely_later (fun _ _ _ => id) (fun _ _ _ => claimGuard_of_noClaim) h s trivial

theorem meets_of_claimsAt {time : ℤ} (h : p.Issues (ClaimsAt time))
    (hs : time ≤ s.clock) : Meets p s := by
  have hwp := Machine.wp_of_issues rely_later (fun _ _ hst hs => le_trans hs hst)
    (fun _ _ => claimGuard_of_claimsAt) h s hs
  exact hwp.weaken fun _ _ _ => trivial

section
variable {P : Op → Prop}

theorem issues_parseJson {request : Posted} {handler : Body → Handler Outcome}
    (h : ∀ body, (handler body).Issues P) : (parseJson request handler).Issues P := by
  unfold parseJson
  cases request.body with
  | none => trivial
  | some body => exact h body

theorem issues_nodeAuthorized (hP : ∀ nodeId, P (.selectNode nodeId))
    (authorization nodeId : String) : (nodeAuthorized authorization nodeId).Issues P := by
  unfold nodeAuthorized
  apply Issues.ite
  · apply Issues.ite
    · trivial
    · exact ⟨hP nodeId, fun _ => trivial⟩
  · trivial

theorem issues_nodeCall (hP : ∀ nodeId, P (.selectNode nodeId)) {request : Posted}
    {handler : Body → String → String → Handler Outcome}
    (h : ∀ body nodeId batchCode, (handler body nodeId batchCode).Issues P) :
    (nodeCall request handler).Issues P := by
  apply issues_parseJson
  intro body
  apply (issues_nodeAuthorized hP _ _).bind
  intro authorized
  apply Issues.ite
  · trivial
  · apply Issues.ite
    · trivial
    · exact h _ _ _

theorem issues_await {α : Type} {o : Op} (ho : P o) {f : Ans o → Handler α}
    (hf : ∀ a, (f a).Issues P) : (await o >>= f).Issues P := ⟨ho, hf⟩

theorem issues_changesOne {u : Update} (hu : P (.update u)) : (changesOne u).Issues P :=
  ⟨hu, fun _ => trivial⟩

theorem issues_update (hnow : P .now) {u : ℤ → Update} (hu : ∀ now, P (.update (u now)))
    {f : ℤ → Bool → Handler Outcome} (hf : ∀ now changed, (f now changed).Issues P) :
    (do let now ← await .now; f now (← changesOne (u now))).Issues P :=
  ⟨hnow, fun now => (issues_changesOne (hu now)).bind (hf now)⟩

theorem issues_claimSpecific {nodeId batchCode : String} {leaseSeconds now : ℤ}
    (hu : P (.update (.claim nodeId (now + leaseSeconds * 1000) now batchCode)))
    (hs : P (.selectClaimed batchCode)) :
    (claimSpecific nodeId batchCode leaseSeconds now).Issues P := by
  apply (issues_changesOne hu).bind
  intro changed
  apply Issues.ite
  · exact ⟨hs, fun _ => trivial⟩
  · trivial

theorem issues_storeBody {env : Env} {request : Upload} {maxBytes : ℕ} {mismatch : String}
    {object : List ℕ → StoredObject} {stored : Handler Outcome}
    (hput : ∀ body, P (.putObject (object body))) (h : stored.Issues P) :
    (storeBody env request maxBytes mismatch object stored).Issues P := by
  unfold storeBody
  apply Issues.ite
  · trivial
  · cases readBoundedBody request maxBytes with
    | error e => trivial
    | ok body =>
      apply Issues.ite
      · trivial
      · apply Issues.ite
        · trivial
        · exact ⟨hput body, fun _ => h⟩

end

theorem noClaim_heartbeat (request : Posted) : (handleHeartbeat request).Issues NoClaim := by
  apply issues_nodeCall (fun _ => trivial)
  intro body nodeId batchCode
  cases body.leaseSeconds.leaseSeconds? with
  | none => trivial
  | some leaseSeconds =>
    apply issues_update trivial (fun _ => trivial)
    intro now changed
    apply Issues.ite
    · trivial
    · exact ⟨trivial, fun _ => trivial⟩

theorem noClaim_pauseRequest (request : Posted) : (handlePauseRequest request).Issues NoClaim := by
  apply issues_nodeCall (fun _ => trivial)
  intro _ nodeId batchCode
  apply issues_update trivial (fun _ => trivial)
  intro now changed
  apply Issues.ite
  · trivial
  · exact ⟨trivial, fun _ => trivial⟩

theorem noClaim_paused (request : Posted) : (handlePaused request).Issues NoClaim := by
  apply issues_nodeCall (fun _ => trivial)
  intro _ nodeId batchCode
  apply issues_update trivial (fun _ => trivial)
  intro now changed
  apply Issues.ite
  · trivial
  · exact ⟨trivial, fun _ => trivial⟩

theorem noClaim_resume (request : Posted) : (handleResume request).Issues NoClaim := by
  apply issues_parseJson
  intro body
  apply (issues_nodeAuthorized (fun _ => trivial) _ _).bind
  intro authorized
  apply Issues.ite
  · trivial
  · cases (body.leaseSeconds.leaseSeconds?).filter fun _ => isBatchCode (body.batchCode.getD "") with
    | none => trivial
    | some leaseSeconds =>
      apply issues_update trivial (fun _ => trivial)
      intro now changed
      apply Issues.ite
      · trivial
      · exact ⟨trivial, fun _ => trivial⟩

theorem noClaim_release (request : Posted) : (handleRelease request).Issues NoClaim := by
  apply issues_nodeCall (fun _ => trivial)
  intro _ nodeId batchCode
  apply issues_update trivial (fun _ => trivial)
  intro now changed
  apply Issues.ite
  · trivial
  · exact ⟨trivial, fun _ => trivial⟩

theorem noClaim_artifactPut (env : Env) (request : Upload)
    (batchCode candidateId artifactSha : String) :
    (handleArtifactPut env request batchCode candidateId artifactSha).Issues NoClaim := by
  apply (issues_nodeAuthorized (fun _ => trivial) _ _).bind
  intro authorized
  apply Issues.ite
  · trivial
  · apply Issues.ite
    · trivial
    · apply issues_await trivial
      intro row
      split
      · trivial
      · apply issues_storeBody (fun _ => trivial)
        exact ⟨trivial, fun _ => ⟨trivial, fun _ => ⟨trivial, fun _ => trivial⟩⟩⟩

theorem noClaim_manifestPut (env : Env) (request : Upload) (batchCode manifestSha : String) :
    (handleManifestPut env request batchCode manifestSha).Issues NoClaim := by
  apply (issues_nodeAuthorized (fun _ => trivial) _ _).bind
  intro authorized
  apply Issues.ite
  · trivial
  · apply Issues.ite
    · trivial
    · apply issues_await trivial
      intro row
      split
      · trivial
      · apply issues_storeBody (fun _ => trivial)
        exact ⟨trivial, fun _ => ⟨trivial, fun _ => trivial⟩⟩

theorem noClaim_declareReady (now : ℤ) (manifestSha : String) (resultCount : ℤ)
    (transferMode batchCode nodeId : String) :
    (declareReady now manifestSha resultCount transferMode batchCode nodeId).Issues NoClaim := by
  apply (issues_changesOne trivial).bind
  intro changed
  apply Issues.ite
  · trivial
  · exact ⟨trivial, fun _ => trivial⟩

theorem noClaim_ready (env : Env) (request : Posted) : (handleReady env request).Issues NoClaim := by
  apply issues_parseJson
  intro body
  apply (issues_nodeAuthorized (fun _ => trivial) _ _).bind
  intro authorized
  apply Issues.ite
  · trivial
  · split
    · trivial
    · apply issues_await trivial
      intro now
      apply Issues.ite
      · apply Issues.ite
        · trivial
        · apply issues_await trivial
          intro plan
          cases plan with
          | none => trivial
          | some planSha256 =>
            apply issues_await trivial
            intro found
            apply Issues.ite
            · trivial
            · exact noClaim_declareReady _ _ _ _ _ _
      · exact noClaim_declareReady _ _ _ _ _ _

theorem noClaim_ingested (env : Env) (request : Posted) :
    (handleIngested env request).Issues NoClaim := by
  apply Issues.ite
  · trivial
  · apply issues_parseJson
    intro body
    apply Issues.ite
    · trivial
    · apply issues_update trivial (fun _ => trivial)
      intro now changed
      apply Issues.ite
      · trivial
      · exact ⟨trivial, fun _ => trivial⟩

theorem claimsAt_claimAuto (nodeId : String) (leaseSeconds now : ℤ) (attempts : ℕ) :
    (claimAuto nodeId leaseSeconds now attempts).Issues (ClaimsAt now) := by
  induction attempts with
  | zero => trivial
  | succ attempts ih =>
    apply issues_await trivial
    intro candidate
    cases candidate with
    | none => trivial
    | some candidate =>
      apply (issues_claimSpecific (P := ClaimsAt now) rfl trivial).bind
      intro claimed
      cases claimed with
      | none => exact ih
      | some claimed => trivial

theorem claimsAt_claimRequested (nodeId : String) (requested : Option String)
    (leaseSeconds now : ℤ) :
    (claimRequested nodeId requested leaseSeconds now).Issues (ClaimsAt now) := by
  cases requested with
  | none => exact claimsAt_claimAuto _ _ _ _
  | some requested => exact issues_claimSpecific (P := ClaimsAt now) rfl trivial

theorem meets_await (ho : NoClaim o) {f : Ans o → Handler α}
    (hf : ∀ t, Later s t → Meets (f (machine.exec o t).1) (machine.after t o)) :
    Meets (await o >>= f) s :=
  fun t ht => ⟨claimGuard_of_noClaim ho, hf t ht⟩

theorem meets_bind {β : Type} (hp : p.Issues NoClaim) {f : α → Handler β}
    (hf : ∀ a s, Meets (f a) s) (s : Store) : Meets (p >>= f) s :=
  Machine.wp_bind.mpr ((meets_of_noClaim hp s).weaken fun a t _ => hf a t)

theorem meets_ite {c : Prop} [Decidable c] {q : Handler α}
    (hp : Meets p s) (hq : Meets q s) : Meets (if c then p else q) s := by
  split
  · exact hp
  · exact hq

theorem meets_claim (request : Posted) (s : Store) : Meets (handleClaim request) s := by
  unfold handleClaim parseJson
  cases request.body with
  | none => trivial
  | some body =>
    apply meets_bind (issues_nodeAuthorized (fun _ => trivial) _ _)
    intro authorized s
    apply meets_ite
    · trivial
    · cases body.leaseSeconds.leaseSeconds? with
      | none => trivial
      | some leaseSeconds =>
        apply meets_ite
        · trivial
        · apply meets_await (o := .now) trivial
          intro t ht
          refine meets_of_claimsAt (?_ : Issues (ClaimsAt t.clock) _) le_rfl
          apply issues_await trivial
          intro _
          apply (claimsAt_claimRequested _ _ leaseSeconds t.clock).bind
          intro claimed
          cases claimed with
          | none => trivial
          | some claimed => exact ⟨trivial, fun _ => ⟨trivial, fun _ => trivial⟩⟩

/-- Every request meets the guard, from whatever store it finds. -/
theorem meets_fetch (env : Env) (p : Handler Outcome) (s : Store) (h : Admits env p) :
    Meets p s := by
  obtain ⟨request, rfl⟩ := h
  cases request with
  | claim request => exact meets_claim request s
  | heartbeat request => exact meets_of_noClaim (noClaim_heartbeat request) s
  | pauseRequest request => exact meets_of_noClaim (noClaim_pauseRequest request) s
  | paused request => exact meets_of_noClaim (noClaim_paused request) s
  | resume request => exact meets_of_noClaim (noClaim_resume request) s
  | release request => exact meets_of_noClaim (noClaim_release request) s
  | ready request => exact meets_of_noClaim (noClaim_ready env request) s
  | ingested request => exact meets_of_noClaim (noClaim_ingested env request) s
  | artifactPut request batchCode candidateId artifactSha =>
    exact meets_of_noClaim (noClaim_artifactPut env request _ _ _) s
  | manifestPut request batchCode manifestSha =>
    exact meets_of_noClaim (noClaim_manifestPut env request _ _) s

end TradingLab.Coordinator
