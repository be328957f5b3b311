import TradingLab.Coordinator.Lockstep
import TradingLab.Factory.Partition

/-!
# One protocol, two coordinators

The same operations are sent to both coordinators, at times that never run
backwards. Both judge every operation of a node alike and stay in
correspondence, with two exceptions: the owner of a lease that the local
coordinator has cleared can still release it at the other one, and the local
coordinator ingests a batch in whatever state it is.
-/

namespace TradingLab

open Interleaving List Table
open Coordinator (BatchRow BatchState Store Update Env Does accepted Authorized machine)
open Factory (BatchRecord Registry Plan Bound Returned Moves)

inductive Operation where
  | claim (nodeId : String) (batchCode : Option String) (leaseSeconds : ℤ)
  | heartbeat (nodeId batchCode : String) (leaseSeconds : ℤ)
  | pauseRequest (nodeId batchCode : String)
  | paused (nodeId batchCode : String)
  | resume (nodeId batchCode : String) (leaseSeconds : ℤ)
  | release (nodeId batchCode : String)
  | ingest (manifest : JsonMembers)

def numberField (n : ℤ) : Coordinator.NumberField := if n = 0 then .falsy else .integer n

/-- The credentials that the requests carry. -/
structure Credentials where
  node : String → String
  admin : String

namespace Operation

/-- The node that acts; an ingest is the administrator's. -/
def nodeId? : Operation → Option String
  | claim nodeId _ _ | heartbeat nodeId _ _ | pauseRequest nodeId _ | paused nodeId _
  | resume nodeId _ _ | release nodeId _ => some nodeId
  | ingest _ => none

/-- The request to the coordinator of the network. -/
def request (cred : Credentials) : Operation → Coordinator.Request
  | claim nodeId batchCode leaseSeconds => .claim ⟨cred.node nodeId,
      some ⟨some nodeId, batchCode, numberField leaseSeconds, none, none, none⟩⟩
  | heartbeat nodeId batchCode leaseSeconds => .heartbeat ⟨cred.node nodeId,
      some ⟨some nodeId, some batchCode, numberField leaseSeconds, none, none, none⟩⟩
  | pauseRequest nodeId batchCode => .pauseRequest ⟨cred.node nodeId,
      some ⟨some nodeId, some batchCode, .falsy, none, none, none⟩⟩
  | paused nodeId batchCode => .paused ⟨cred.node nodeId,
      some ⟨some nodeId, some batchCode, .falsy, none, none, none⟩⟩
  | resume nodeId batchCode leaseSeconds => .resume ⟨cred.node nodeId,
      some ⟨some nodeId, some batchCode, numberField leaseSeconds, none, none, none⟩⟩
  | release nodeId batchCode => .release ⟨cred.node nodeId,
      some ⟨some nodeId, some batchCode, .falsy, none, none, none⟩⟩
  | ingest manifest => .ingested ⟨cred.admin,
      some ⟨none, some (Factory.manifestCode manifest), .falsy,
        some (Factory.manifestSha manifest), none, none⟩⟩

/-- The operation at the coordinator of the network: whether it is accepted, and the store. -/
def worker (env : Env) (cred : Credentials) (op : Operation) (now : ℤ) (s : Store) : Bool × Store :=
  let r := machine.result (Coordinator.fetch env (op.request cred)) { s with clock := now }
  (accepted r.1, r.2)

def called {α : Type} (m : Factory.Call α) (r : Registry) : Bool × Registry :=
  (Returned m r, m.after r)

/-- The operation at the local coordinator. -/
def registry (plan : Plan) (op : Operation) (now : ℤ) (r : Registry) : Bool × Registry :=
  match op with
  | claim nodeId batchCode leaseSeconds =>
      called (Factory.claimBatch plan nodeId batchCode leaseSeconds now) r
  | heartbeat nodeId batchCode leaseSeconds =>
      called (Factory.heartbeat plan nodeId batchCode leaseSeconds now) r
  | pauseRequest nodeId batchCode =>
      called (Factory.coordinatorPauseRequest plan nodeId batchCode now) r
  | paused nodeId batchCode => called (Factory.coordinatorMarkPaused plan nodeId batchCode now) r
  | resume nodeId batchCode leaseSeconds =>
      called (Factory.coordinatorResume plan nodeId batchCode leaseSeconds now) r
  | release nodeId batchCode => called (Factory.coordinatorRelease plan nodeId batchCode now) r
  | ingest manifest => called (Factory.markIngested plan manifest now) r

/-- The leases that both coordinators read alike: the worker takes zero for a missing field, and
the local heartbeat does not check its lease. -/
def LeaseOk : Operation → Prop
  | claim _ _ leaseSeconds | resume _ _ leaseSeconds => leaseSeconds ≠ 0
  | heartbeat _ _ leaseSeconds => 60 ≤ leaseSeconds ∧ leaseSeconds ≤ 86400
  | _ => True

end Operation

/-- Both list the batches of the plan, and their rows correspond. -/
structure Corresponds (plan : Plan) (time : ℤ) (s : Store) (r : Registry) : Prop where
  bound : Bound plan r
  rows : List.Forall₂ (RowCorresponds time) s.batches.rows r.batches.rows

section
variable {plan : Plan} {time now : ℤ} {s : Store} {r : Registry}

variable {code : String} {u : Update} {allowed : BatchRecord → Bool}
  {f : BatchRecord → BatchRecord} {hf : ∀ b, (f b).batchCode = b.batchCode}

variable {js : List BatchRow} {ps : List BatchRecord}
  {p : Coordinator.Handler Coordinator.Outcome} {α : Type} {m : Factory.Call α}

theorem forall₂_find? (h : List.Forall₂ (RowCorresponds time) js ps) :
    Option.Rel (RowCorresponds time) (js.find? fun j => j.batchCode = code)
      (ps.find? fun p => p.batchCode = code) := by
  induction h with
  | nil => exact .none
  | cons hrow _ ih =>
    rw [find?_cons, find?_cons, hrow.code]
    split
    · exact .some hrow
    · exact ih

theorem Corresponds.batch? (h : Corresponds plan time s r) (code : String) :
    Option.Rel (RowCorresponds time) (s.batch? code) (r.batch? code) := forall₂_find? h.rows

theorem Corresponds.rows_of (h : Corresponds plan time s r) (code : String) :
    (s.batch? code = none ∧ r.batch? code = none) ∨
      ∃ j p, s.batch? code = some j ∧ r.batch? code = some p ∧ p.batchCode = code ∧
        RowCorresponds time j p := by
  have hrel := h.batch? code
  have hkey : ∀ p, r.batch? code = some p → p.batchCode = code := fun p => key_of_find?
  generalize s.batch? code = j at hrel
  generalize r.batch? code = p at hrel hkey
  cases hrel with
  | none => exact .inl ⟨rfl, rfl⟩
  | some hrow => exact .inr ⟨_, _, rfl, rfl, hkey _ rfl, hrow⟩

theorem Corresponds.any_eq (h : Corresponds plan time s r) {q : BatchRow → Bool}
    {q' : BatchRecord → Bool}
    (hq : ∀ j p, RowCorresponds time j p → p.batchCode = code → q j = q' p) :
    (s.batch? code).any q = (r.batch? code).any q' := by
  rcases h.rows_of code with ⟨hj, hp⟩ | ⟨j, p, hj, hp, hcode, hrow⟩
  · rw [hj, hp]
    rfl
  · rw [hj, hp]
    exact hq j p hrow hcode

theorem Corresponds.missing (h : Corresponds plan time s r)
    (hcode : Coordinator.isBatchCode code = false) : s.batch? code = none := by
  have hnone : r.batch? code = none := by
    rw [← Option.not_isSome_iff_eq_none, h.bound.isSome_batch?]
    intro hmem
    rw [plan.isBatchCode_code hmem] at hcode
    cases hcode
  rcases h.rows_of code with ⟨hj, -⟩ | ⟨j, p, -, hp, -, -⟩
  · exact hj
  · cases hnone.symm.trans hp

theorem Corresponds.later (h : Corresponds plan time s r) (ht : time ≤ now) :
    Corresponds plan now s r := ⟨h.bound, h.rows.imp fun _ _ hrow => hrow.later ht⟩

theorem Corresponds.congr (h : Corresponds plan time s r) {t : Store}
    (ht : t.batches = s.batches) : Corresponds plan time t r := ⟨h.bound, ht ▸ h.rows⟩

theorem forall₂_mem (h : List.Forall₂ (RowCorresponds time) js ps) :
    List.Forall₂ (fun j p => j ∈ js ∧ p ∈ ps ∧ RowCorresponds time j p) js ps := by
  induction h with
  | nil => exact .nil
  | cons hrow _ ih =>
    refine .cons ⟨mem_cons_self, mem_cons_self, hrow⟩ (ih.imp fun j p h => ?_)
    exact ⟨mem_cons_of_mem _ h.1, mem_cons_of_mem _ h.2.1, h.2.2⟩

theorem Corresponds.change (h : Corresponds plan time s r) {s' : Store}
    (hs : s'.batches = (s.update u).batches) {r' : Registry}
    (hr : r' = r.update (fun b => b.batchCode = code && allowed b) f hf)
    (hrows : ∀ j ∈ s.batches.rows, ∀ p ∈ r.batches.rows, RowCorresponds time j p →
      RowCorresponds now (u.apply j) (changeOne code allowed f p)) :
    Corresponds plan now s' r' := by
  subst hr
  refine ⟨h.bound.update _ _ _, ?_⟩
  rw [hs]
  change Forall₂ _ (s.batches.rows.map u.apply)
    (r.batches.rows.map (changeOne code allowed f))
  rw [forall₂_map_left_iff, forall₂_map_right_iff]
  exact (forall₂_mem h.rows).imp fun j p hm => hrows j hm.1 p hm.2.1 hm.2.2

theorem Corresponds.does (h : Corresponds plan time s r) (hp : Does p { s with clock := now } u)
    (hm : Moves m r u.batchCode allowed f hf)
    (hrows : ∀ j p, RowCorresponds time j p →
      RowCorresponds now (u.apply j) (changeOne u.batchCode allowed f p)) :
    Corresponds plan now (machine.result p { s with clock := now }).2 (m.after r) :=
  h.change hp.batches hm.after fun j _ p _ => hrows j p

theorem Corresponds.judged (h : Corresponds plan time s r) (hp : Does p { s with clock := now } u)
    (hm : Moves m r u.batchCode allowed f hf)
    (hsel : ∀ j p, RowCorresponds time j p →
      u.selects j = (p.batchCode = u.batchCode && allowed p)) :
    accepted (machine.result p { s with clock := now }).1 = Returned m r := by
  rw [hp.accepted, hm.returned]
  refine h.any_eq fun j p hrow hcode => ?_
  rw [hsel j p hrow, hcode]
  simp

end

/-- The owner of a lease that the local coordinator has cleared releases its batch. -/
def ReleasesCleared (time : ℤ) (op : Operation) (s : Store) : Prop :=
  ∃ nodeId code j, op = .release nodeId code ∧ s.batch? code = some j ∧ j.state = .claimed ∧
    j.ownerNode = some nodeId ∧ j.leaseUntilMs.any (· < time) = true

/-- The databases correspond after the operation, and it is judged alike by both, unless a
cleared lease is released. -/
structure Agrees (plan : Plan) (time now : ℤ) (op : Operation) (s : Store) (a : Bool × Store)
    (b : Bool × Registry) : Prop where
  corresponds : Corresponds plan now a.2 b.2
  judged : a.1 = b.1 ∨ ReleasesCleared time op s ∧ a.1 = true ∧ b.1 = false

theorem isNode_of_authorized {s : Store} {authorization nodeId : String}
    (h : Authorized s authorization nodeId) : Factory.isNode nodeId = true := by
  cases hn : Coordinator.isNodeId nodeId with
  | true => exact hn
  | false =>
    unfold Authorized Coordinator.nodeAuthorized at h
    rw [hn] at h
    cases h

theorem leaseSeconds_numberField {n : ℤ} (h : 60 ≤ n ∧ n ≤ 86400) :
    (numberField n).leaseSeconds? = some n := by
  have hn : n ≠ 0 := by omega
  unfold numberField Coordinator.NumberField.leaseSeconds?
  rw [if_neg hn]
  simp [h]

theorem leaseSeconds_numberField_none {n : ℤ} (h0 : n ≠ 0) (h : ¬ (60 ≤ n ∧ n ≤ 86400)) :
    (numberField n).leaseSeconds? = none := by
  unfold numberField Coordinator.NumberField.leaseSeconds?
  rw [if_neg h0]
  simpa using h

section
variable {plan : Plan} {time now : ℤ} {s : Store} {r : Registry} {env : Env} {cred : Credentials}
    {nodeId code : String}
    (h : Corresponds plan time s r) (ht : time ≤ now)
    (hauth : Authorized { s with clock := now } (cred.node nodeId) nodeId)

include h ht hauth

variable {leaseSeconds : ℤ}

theorem agrees_heartbeat (hlease : 60 ≤ leaseSeconds ∧ leaseSeconds ≤ 86400) :
    let op := Operation.heartbeat nodeId code leaseSeconds
    Agrees plan time now op s (op.worker env cred now s) (op.registry plan now r) := by
  intro op
  have hdoes : Does (Coordinator.fetch env (op.request cred)) { s with clock := now }
      (.heartbeat (now + leaseSeconds * 1000) now code nodeId) :=
    Coordinator.does_heartbeat rfl rfl hauth h.missing (leaseSeconds_numberField hlease)
  have hmoves := Factory.moves_heartbeat code leaseSeconds now h.bound (isNode_of_authorized hauth)
  refine ⟨h.does hdoes hmoves fun j p hrow => ?_, .inl (h.judged hdoes hmoves fun j p hrow => ?_)⟩
  · exact corresponds_heartbeat ht hrow nodeId code _
  · exact selects_holdsLease ht hrow nodeId code

theorem agrees_pauseRequest :
    let op := Operation.pauseRequest nodeId code
    Agrees plan time now op s (op.worker env cred now s) (op.registry plan now r) := by
  intro op
  have hdoes : Does (Coordinator.fetch env (op.request cred)) { s with clock := now }
      (.pauseRequest now code nodeId) :=
    Coordinator.does_pauseRequest rfl rfl hauth h.missing
  have hmoves := Factory.moves_pauseRequest code now h.bound (isNode_of_authorized hauth)
  refine ⟨h.does hdoes hmoves fun j p hrow => ?_, .inl (h.judged hdoes hmoves fun j p hrow => ?_)⟩
  · exact corresponds_pauseRequest ht hrow nodeId code
  · exact selects_holdsLease ht hrow nodeId code

theorem agrees_paused :
    let op := Operation.paused nodeId code
    Agrees plan time now op s (op.worker env cred now s) (op.registry plan now r) := by
  intro op
  have hdoes : Does (Coordinator.fetch env (op.request cred)) { s with clock := now }
      (.paused now code nodeId) :=
    Coordinator.does_paused rfl rfl hauth h.missing
  have hmoves := Factory.moves_markPaused code now h.bound (isNode_of_authorized hauth)
  refine ⟨h.does hdoes hmoves fun j p hrow => ?_, .inl (h.judged hdoes hmoves fun j p hrow => ?_)⟩
  · exact corresponds_paused ht hrow nodeId code
  · exact selects_state hrow nodeId code (by decide) (by decide)

theorem agrees_release :
    let op := Operation.release nodeId code
    Agrees plan time now op s (op.worker env cred now s) (op.registry plan now r) := by
  intro op
  have hdoes : Does (Coordinator.fetch env (op.request cred)) { s with clock := now }
      (.release now code nodeId) :=
    Coordinator.does_release rfl rfl hauth h.missing
  have hmoves := Factory.moves_release code now h.bound (isNode_of_authorized hauth)
  refine ⟨h.does hdoes hmoves fun j p hrow => ?_, ?_⟩
  · exact corresponds_release ht hrow nodeId code
  · have haccepted : (op.worker env cred now s).1 =
        (s.batch? code).any (Update.release now code nodeId).selects := hdoes.accepted
    have hreturned : (op.registry plan now r).1 =
        (r.batch? code).any (Factory.releasable nodeId) := hmoves.returned
    rw [haccepted, hreturned]
    rcases h.rows_of code with ⟨hj, hp⟩ | ⟨j, p, hj, hp, hcode, hrow⟩
    · rw [hj, hp]
      exact .inl rfl
    · rw [hj, hp, Option.any_some, Option.any_some]
      rcases selects_release hrow nodeId code with hsel | ⟨hswept, hown, hfalse⟩
      · rw [hsel, hcode]
        simp
      · refine .inr ⟨⟨nodeId, code, j, rfl, hj, hswept.1, hown, hswept.2.1⟩, ?_, hfalse⟩
        simp [Update.selects, hrow.code ▸ hcode, hswept.1, hown]

theorem agrees_resume (hlease : leaseSeconds ≠ 0) :
    let op := Operation.resume nodeId code leaseSeconds
    Agrees plan time now op s (op.worker env cred now s) (op.registry plan now r) := by
  intro op
  by_cases hbounds : 60 ≤ leaseSeconds ∧ leaseSeconds ≤ 86400
  · have hdoes : Does (Coordinator.fetch env (op.request cred)) { s with clock := now }
        (.resume (now + leaseSeconds * 1000) now code nodeId) :=
      Coordinator.does_resume rfl rfl hauth h.missing (leaseSeconds_numberField hbounds)
    have hmoves := Factory.moves_resume code now h.bound (isNode_of_authorized hauth) hbounds
    refine ⟨h.does hdoes hmoves fun j p hrow => ?_, .inl (h.judged hdoes hmoves fun j p hrow => ?_)⟩
    · exact corresponds_resume ht hrow nodeId code _
    · exact selects_state hrow nodeId code (by decide) (by decide)
  · have hraises := (Factory.resume_invalid plan r nodeId code hbounds now).returned
    have hrefused : op.worker env cred now s = (false, { s with clock := now }) := by
      unfold Operation.worker
      rw [show Coordinator.fetch env (op.request cred) = Coordinator.handleResume _ from rfl,
        Coordinator.resume_refused rfl hauth (leaseSeconds_numberField_none hlease hbounds)]
      rfl
    rw [hrefused]
    refine ⟨?_, .inl hraises.1.symm⟩
    have hsame : (op.registry plan now r).2 = r := hraises.2
    rw [hsame]
    exact (h.later ht).congr rfl

end

theorem claimable_codes {time now : ℤ} (ht : time ≤ now) {js : List BatchRow}
    {ps : List BatchRecord} (hrows : List.Forall₂ (RowCorresponds time) js ps) :
    (js.filter fun j => j.state = .available ∨
        j.state = .claimed ∧ j.leaseUntilMs.any (· < now)).map BatchRow.batchCode =
      ((ps.map (sweptRow now)).filter fun p => p.state = .available).map BatchRecord.batchCode := by
  induction hrows with
  | nil => rfl
  | @cons j p js ps hrow _ ih =>
    have hiff := candidate_iff ht hrow
    have hcode := (corresponds_sweep ht hrow).code
    rw [map_cons, filter_cons, filter_cons]
    simp only [decide_eq_true_eq]
    by_cases hc : (sweptRow now p).state = .available
    · rw [if_pos (hiff.mpr hc), if_pos hc, map_cons, map_cons, ih, hcode]
    · rw [if_neg fun hp => hc (hiff.mp hp), if_neg hc, ih]

section
variable {plan : Plan} {time now : ℤ} {s : Store} {r : Registry} {env : Env} {cred : Credentials}
    (h : Corresponds plan time s r) (ht : time ≤ now)

include h ht

omit h ht in
theorem rows_swept : (r.swept now).batches.rows = r.batches.rows.map (sweptRow now) := by
  change r.batches.rows.map _ = _
  apply map_congr_left
  intro p _
  unfold sweptRow
  simp only [decide_eq_true_eq]

omit h ht in
theorem ingest_refused (hadmin : Coordinator.adminAuthorized env cred.admin = true)
    (manifest : JsonMembers)
    (hrej : ((Operation.ingest manifest).worker env cred now s).1 = false) :
    ((Operation.ingest manifest).worker env cred now s).2.batches = s.batches := by
  by_cases hform : Coordinator.isBatchCode (Factory.manifestCode manifest) = true ∧
      Sha256.isHexDigest (Factory.manifestSha manifest) = true
  · have hdoes : Does (Coordinator.fetch env ((Operation.ingest manifest).request cred))
        { s with clock := now } (.ingested now (Factory.manifestCode manifest) _) :=
      Coordinator.does_ingested hadmin rfl rfl hform.1 hform.2
    exact hdoes.batches.trans
      (Coordinator.update_batches_of_false (hdoes.accepted.symm.trans hrej))
  · rw [Classical.not_and_iff_not_or_not, Bool.not_eq_true, Bool.not_eq_true] at hform
    unfold Operation.worker
    rw [show Coordinator.fetch env ((Operation.ingest manifest).request cred) =
      Coordinator.handleIngested env _ from rfl,
      Coordinator.ingested_invalid hadmin rfl rfl hform]

theorem target_eq (requested : Option String) :
    Coordinator.claimTarget s requested now = (r.swept now).target requested := by
  cases requested with
  | some code => rfl
  | none =>
    dsimp only [Coordinator.claimTarget, Registry.target]
    unfold Store.candidate Factory.firstAvailable
    dsimp only
    rw [claimable_codes ht h.rows, rows_swept]

omit h ht in
theorem swept_batch? (code : String) :
    (r.swept now).batch? code = (r.batch? code).map (sweptRow now) := by
  rw [Registry.swept, Registry.batch?, Registry.update, find?_update, Registry.batch?]
  congr 1
  funext p
  unfold sweptRow
  simp only [decide_eq_true_eq]

theorem agrees_claim {nodeId : String} (requested : Option String) {leaseSeconds : ℤ}
    (hlease : leaseSeconds ≠ 0)
    (hauth : Authorized { s with clock := now } (cred.node nodeId) nodeId) :
    let op := Operation.claim nodeId requested leaseSeconds
    Agrees plan time now op s (op.worker env cred now s) (op.registry plan now r) := by
  intro op
  by_cases hbounds : 60 ≤ leaseSeconds ∧ leaseSeconds ≤ 86400
  · have hclaim := @Coordinator.does_claim _ ⟨some nodeId, requested, numberField leaseSeconds,
      none, none, none⟩ _ _ _ rfl hauth (leaseSeconds_numberField hbounds) fun _ _ => h.missing
    have hrequested : Coordinator.claimTarget { s with clock := now } requested now =
        (r.swept now).target requested := target_eq h ht requested
    dsimp only at hclaim
    rw [hrequested] at hclaim
    have hspec := Factory.claimBatch_spec h.bound (isNode_of_authorized hauth) requested hbounds now
    dsimp only at hspec
    cases htarget : (r.swept now).target requested with
    | none =>
      rw [htarget] at hclaim hspec
      have hsame : (op.registry plan now r).2 = r := hspec.2
      refine ⟨?_, .inl (hclaim.1.trans hspec.1.symm)⟩
      rw [hsame]
      exact (h.later ht).congr hclaim.2
    | some code =>
      rw [htarget] at hclaim hspec
      dsimp only at hclaim hspec
      have hjudged : (s.batch? code).any
            (Update.claim nodeId (now + leaseSeconds * 1000) now code).selects =
          ((r.swept now).batch? code).any (Factory.claimable nodeId now) := by
        rw [swept_batch?]
        rcases h.rows_of code with ⟨hj, hp⟩ | ⟨j, p, hj, hp, hcode, hrow⟩
        · rw [hj, hp]
          rfl
        · rw [hj, hp, Option.any_some, Option.map_some, Option.any_some,
            selects_claim ht hrow, (corresponds_sweep ht hrow).code, ← hrow.code, hcode]
          simp
      refine ⟨?_, .inl (hclaim.accepted.trans (hjudged.trans hspec.1.symm))⟩
      have hafter : (op.registry plan now r).2 = _ := hspec.2
      rw [hafter]
      have hbatches : (op.worker env cred now s).2.batches =
          (s.update (.claim nodeId (now + leaseSeconds * 1000) now code)).batches := hclaim.batches
      cases hret : ((r.swept now).batch? code).any (Factory.claimable nodeId now) with
      | false =>
        rw [hspec.1, hret, if_neg Bool.false_ne_true]
        refine (h.later ht).congr (hbatches.trans (Coordinator.update_batches_of_false ?_))
        exact hjudged.trans hret
      | true =>
        let leaseUntil := now + leaseSeconds * 1000
        have hupdate : (r.swept now).update (fun b => b.batchCode = code)
              (Factory.claimed nodeId leaseUntil now) (fun _ => rfl) =
            (r.swept now).update (fun b => b.batchCode = code && Factory.claimable nodeId now b)
              (Factory.claimed nodeId leaseUntil now) fun _ => rfl := by
          have hfind := update_of_find? (r.swept now).batches code
            (Factory.claimable nodeId now) (Factory.claimed nodeId leaseUntil now) fun _ => rfl
          rw [Registry.batch?] at hret
          rw [if_pos hret] at hfind
          exact congrArg (fun b => { r.swept now with batches := b }) hfind
        rw [hspec.1, hret, if_pos rfl, hupdate]
        refine ⟨(h.bound.swept now).update _ _ _, ?_⟩
        rw [hbatches]
        change Forall₂ _ (s.batches.rows.map _) ((r.swept now).batches.rows.map
          (changeOne code (Factory.claimable nodeId now) (Factory.claimed nodeId leaseUntil now)))
        rw [rows_swept, map_map, forall₂_map_left_iff, forall₂_map_right_iff]
        exact h.rows.imp fun j p hrow => corresponds_claim ht hrow nodeId code _
  · have hraises := (Factory.claim_invalid plan r nodeId requested hbounds now).returned
    have hrefused : op.worker env cred now s = (false, { s with clock := now }) := by
      unfold Operation.worker
      rw [show Coordinator.fetch env (op.request cred) = Coordinator.handleClaim _ from rfl,
        Coordinator.claim_refused rfl hauth (leaseSeconds_numberField_none hlease hbounds)]
      rfl
    rw [hrefused]
    refine ⟨?_, .inl hraises.1.symm⟩
    have hsame : (op.registry plan now r).2 = r := hraises.2
    rw [hsame]
    exact (h.later ht).congr rfl

/-- An ingest that both judge alike keeps the databases in correspondence. -/
theorem agrees_ingest (hadmin : Coordinator.adminAuthorized env cred.admin = true)
    (manifest : JsonMembers) :
    let op := Operation.ingest manifest
    (op.worker env cred now s).1 = (op.registry plan now r).1 →
    Agrees plan time now op s (op.worker env cred now s) (op.registry plan now r) := by
  intro op hjudged
  refine ⟨?_, .inl hjudged⟩
  let code := Factory.manifestCode manifest
  let sha := Factory.manifestSha manifest
  by_cases hvalid : Factory.ValidManifest plan manifest
  · have hmoves := Factory.markIngested_moves h.bound hvalid now
    have hdoes : Does (Coordinator.fetch env (op.request cred)) { s with clock := now }
        (.ingested now code sha) :=
      Coordinator.does_ingested hadmin rfl rfl (plan.isBatchCode_code hvalid.code) hvalid.sha
    have hrow : (s.batch? code).any (Update.ingested now code sha).selects =
        (r.batch? code).any (Factory.ingestable sha) :=
      hdoes.accepted.symm.trans (hjudged.trans hmoves.returned)
    refine h.change hdoes.batches hmoves.after fun j hj p hp hrel => ?_
    apply corresponds_ingested ht hrel
    by_cases hcode : p.batchCode = code
    · have hj' : s.batch? code = some j := by
        rw [← hcode, hrel.code]
        exact find?_of_mem hj
      have hp' : r.batch? code = some p := by
        rw [← hcode]
        exact find?_of_mem hp
      rw [hj', hp', Option.any_some, Option.any_some] at hrow
      rw [hrow]
      simp [hcode, code, sha]
    · have hne : j.batchCode ≠ code := by rwa [← hrel.code]
      simp [Update.selects, hcode, hne, code]
  · have hraises := (Factory.markIngested_invalid hvalid r now).returned
    have hsame : (op.registry plan now r).2 = r := hraises.2
    rw [hsame]
    exact (h.later ht).congr (ingest_refused hadmin manifest (hjudged.trans hraises.1))

omit ht in
/-- What the worker ingests, the local coordinator ingests. -/
theorem ingest_accepted (hadmin : Coordinator.adminAuthorized env cred.admin = true)
    {manifest : JsonMembers} (hvalid : Factory.ValidManifest plan manifest)
    (hacc : ((Operation.ingest manifest).worker env cred now s).1 = true) :
    ((Operation.ingest manifest).registry plan now r).1 = true := by
  have hmoves := Factory.markIngested_moves h.bound hvalid now
  have hdoes : Does (Coordinator.fetch env ((Operation.ingest manifest).request cred))
      { s with clock := now }
      (.ingested now (Factory.manifestCode manifest) (Factory.manifestSha manifest)) :=
    Coordinator.does_ingested hadmin rfl rfl (plan.isBatchCode_code hvalid.code) hvalid.sha
  have hsel : (s.batch? (Factory.manifestCode manifest)).any
      (Update.ingested now (Factory.manifestCode manifest) (Factory.manifestSha manifest)).selects =
        true := hdoes.accepted.symm.trans hacc
  have hreturned : ((Operation.ingest manifest).registry plan now r).1 =
      (r.batch? (Factory.manifestCode manifest)).any
        (Factory.ingestable (Factory.manifestSha manifest)) := hmoves.returned
  rw [hreturned]
  rcases h.rows_of (Factory.manifestCode manifest) with ⟨hj, -⟩ | ⟨j, p, hj, hp, -, hrow⟩
  · rw [hj] at hsel
    cases hsel
  · rw [hj, Option.any_some] at hsel
    have hst : j.state = .awaitingIngest := (of_decide_eq_true hsel).2.1
    obtain ⟨hpst, -, -⟩ := hrow.same (.inl (by rw [hst]; decide))
    rw [hp, Option.any_some]
    simp [Factory.ingestable, Factory.ingestRefusal, hpst, hst]

end

/-- The row that the seed inserts for a batch of the plan. -/
def seedRow (plan : Plan) (item : Factory.PlanBatch) : BatchRow where
  batchCode := item.batchCode
  batchSha256 := item.batchSha256
  planSha256 := plan.planSha256
  candidateCount := item.candidateCount
  state := .available
  ownerNode := none
  leaseUntilMs := none
  updatedAtMs := 0
  resultManifestSha256 := none
  resultCount := none
  transferMode := none

/-- The database after `d1_seed_sql`, with the nodes that are enrolled. -/
def seeded (plan : Plan) (nodes : Table Coordinator.NodeRow.nodeId) : Store where
  clock := 0
  planSha256 := some plan.planSha256
  nodes := nodes
  batches := ⟨plan.batches.map (seedRow plan), by rw [List.map_map]; exact plan.nodup_codes⟩
  events := []
  objects := Table.empty

/-- The local database after `init_coordinator`. -/
def initialized (plan : Plan) (now : ℤ) : Registry :=
  (Factory.initCoordinator plan now).after Registry.empty

def initRow (now : ℤ) (item : Factory.PlanBatch) : BatchRecord :=
  ⟨item.batchCode, item.batchSha256, .available, none, none, now, none⟩

theorem rows_insertBatches (now : ℤ) (items : List Factory.PlanBatch)
    (t : Table BatchRecord.batchCode)
    (h : (t.rows.map BatchRecord.batchCode ++ items.map Factory.PlanBatch.batchCode).Nodup) :
    (items.foldl (Factory.insertBatch now) t).rows = t.rows ++ items.map (initRow now) := by
  induction items generalizing t with
  | nil => rw [foldl_nil, map_nil, append_nil]
  | cons item items ih =>
    have hfresh : t.find? item.batchCode = none := by
      rw [Table.find?, find?_eq_none]
      intro row hrow hcode
      rw [nodup_append] at h
      exact h.2.2 _ (mem_map_of_mem hrow) _ mem_cons_self (of_decide_eq_true hcode)
    have hput : Factory.insertBatch now t item = t.put (initRow now item) := by
      rw [Factory.insertBatch, hfresh]
      rfl
    have hrows : (t.put (initRow now item)).rows = t.rows ++ [initRow now item] :=
      rows_put_of_find?_none hfresh
    rw [foldl_cons, hput, ih _ ?_, hrows, append_assoc]
    · rfl
    · rw [hrows, map_append, append_assoc]
      exact h

theorem rows_initialized (plan : Plan) (now : ℤ) :
    (initialized plan now).batches.rows = plan.batches.map (initRow now) := by
  have hrows := rows_insertBatches now plan.batches empty plan.nodup_codes
  exact hrows

theorem corresponds_seeded (plan : Plan) (nodes : Table Coordinator.NodeRow.nodeId) (time now : ℤ) :
    Corresponds plan time (seeded plan nodes) (initialized plan now) where
  bound := ⟨rfl, rfl, by rw [rows_initialized, List.map_map]; rfl⟩
  rows := by
    rw [rows_initialized]
    change Forall₂ _ (plan.batches.map (seedRow plan)) _
    rw [forall₂_map_left_iff, forall₂_map_right_iff, forall₂_same]
    intro item _
    exact ⟨rfl, (fun h => nomatch h), .inl ⟨rfl, rfl, rfl⟩⟩

/-- A batch that nobody has claimed yet is ingested by the local coordinator only. -/
theorem ingest_seeded {plan : Plan} {env : Env} {cred : Credentials}
    (hadmin : Coordinator.adminAuthorized env cred.admin = true) {manifest : JsonMembers}
    (hvalid : Factory.ValidManifest plan manifest) (nodes : Table Coordinator.NodeRow.nodeId)
    (now : ℤ) :
    ((Operation.ingest manifest).worker env cred now (seeded plan nodes)).1 = false ∧
      ((Operation.ingest manifest).registry plan now (initialized plan now)).1 = true := by
  have hcorr := corresponds_seeded plan nodes now now
  have hdoes : Does (Coordinator.fetch env ((Operation.ingest manifest).request cred))
      { seeded plan nodes with clock := now }
      (.ingested now (Factory.manifestCode manifest) (Factory.manifestSha manifest)) :=
    Coordinator.does_ingested hadmin rfl rfl (plan.isBatchCode_code hvalid.code) hvalid.sha
  have hmoves := Factory.markIngested_moves hcorr.bound hvalid now
  have hworker : ((Operation.ingest manifest).worker env cred now (seeded plan nodes)).1 =
      ((seeded plan nodes).batch? (Factory.manifestCode manifest)).any (Update.ingested now
        (Factory.manifestCode manifest) (Factory.manifestSha manifest)).selects := hdoes.accepted
  have hlocal : ((Operation.ingest manifest).registry plan now (initialized plan now)).1 = _ :=
    hmoves.returned
  rw [hworker, hlocal]
  rcases hcorr.rows_of (Factory.manifestCode manifest) with ⟨-, hnone⟩ | ⟨j, p, hj, hp, -, -⟩
  · have hsome := hcorr.bound.isSome_batch?.mpr hvalid.code
    rw [hnone] at hsome
    cases hsome
  · have hjst : j.state = .available := by
      obtain ⟨item, -, rfl⟩ := mem_map.mp (mem_of_find? hj)
      rfl
    have hpst : p.state = .available := by
      have hmem : p ∈ (initialized plan now).batches.rows := mem_of_find? hp
      rw [rows_initialized] at hmem
      obtain ⟨item, -, rfl⟩ := mem_map.mp hmem
      rfl
    rw [hj, hp, Option.any_some, Option.any_some]
    constructor
    · simp [Update.selects, hjst]
    · simp [Factory.ingestable, Factory.ingestRefusal, hpst]

/-- The nodes that act carry valid credentials. -/
def Enrolled (cred : Credentials) (s : Store) (op : Operation) : Prop :=
  ∀ nodeId, op.nodeId? = some nodeId → Authorized s (cred.node nodeId) nodeId

/-- No operation changes a node's credentials. -/
def SameNodes (s t : Store) : Prop := ∀ authorization nodeId,
  Authorized s authorization nodeId ↔ Authorized t authorization nodeId

theorem authorized_congr {s t : Store} {authorization nodeId : String}
    (h : (s.nodes.find? nodeId).map (fun r => (r.enabled, r.tokenSha256)) =
      (t.nodes.find? nodeId).map fun r => (r.enabled, r.tokenSha256)) :
    Authorized s authorization nodeId ↔ Authorized t authorization nodeId := by
  have key : ∀ u : Store, Authorized u authorization nodeId ↔
      Coordinator.isNodeId nodeId = true ∧ Coordinator.bearer authorization ≠ "" ∧
        ((u.nodes.find? nodeId).map fun r => (r.enabled, r.tokenSha256)).any (fun r => r.1 &&
          r.2 == Sha256.hexDigest (Coordinator.bearer authorization).toList) = true := by
    intro u
    unfold Authorized Coordinator.nodeAuthorized
    cases Coordinator.isNodeId nodeId with
    | false => simp
    | true =>
      by_cases htoken : Coordinator.bearer authorization = ""
      · simp [htoken]
      · simp only [if_pos, htoken, if_false, true_and, ne_eq, not_false_eq_true, Option.any_map]
        rfl
  rw [key, key, h]

theorem sameNodes_after (s : Store) (o : Coordinator.Op) : SameNodes s (machine.after s o) := by
  intro authorization nodeId
  apply authorized_congr
  cases o with
  | touchNode touched now =>
    have hfind : ((s.touchNode touched now).nodes.find? nodeId) = _ :=
      s.nodes.find?_update (fun r => r.nodeId = touched)
        (fun r => { r with lastSeenMs := some now }) (fun _ => rfl) nodeId
    change _ = ((s.touchNode touched now).nodes.find? nodeId).map _
    rw [hfind, Option.map_map]
    congr 1
    funext r
    rw [Function.comp_apply]
    split
    · rfl
    · rfl
  | _ => rfl

theorem sameNodes_worker (env : Env) (cred : Credentials) (op : Operation) (now : ℤ) (s : Store) :
    SameNodes s (op.worker env cred now s).2 := by
  have hserved := machine.result_keeps (K := SameNodes) (fun _ _ _ => Iff.rfl)
    (fun h h' authorization nodeId => (h authorization nodeId).trans (h' authorization nodeId))
    sameNodes_after (Coordinator.fetch env (op.request cred)) { s with clock := now }
  have hclock : SameNodes s { s with clock := now } := fun _ _ => authorized_congr rfl
  exact fun authorization nodeId =>
    (hclock authorization nodeId).trans (hserved authorization nodeId)

/-- Every operation of the run is judged alike and keeps the databases in correspondence. -/
def RunAgrees (plan : Plan) (env : Env) (cred : Credentials) :
    ℤ → List (ℤ × Operation) → Store → Registry → Prop
  | time, [], s, r => Corresponds plan time s r
  | time, (now, op) :: ops, s, r =>
      Agrees plan time now op s (op.worker env cred now s) (op.registry plan now r) ∧
        RunAgrees plan env cred now ops (op.worker env cred now s).2 (op.registry plan now r).2

/-- The times never run backwards, the leases are read alike, and every ingest is accepted by
both coordinators or by none. -/
def Admissible (plan : Plan) (env : Env) (cred : Credentials) :
    ℤ → List (ℤ × Operation) → Store → Registry → Prop
  | _, [], _, _ => True
  | time, (now, op) :: ops, s, r =>
      time ≤ now ∧ op.LeaseOk ∧
        (∀ manifest, op = .ingest manifest →
          (op.worker env cred now s).1 = (op.registry plan now r).1) ∧
        Admissible plan env cred now ops (op.worker env cred now s).2 (op.registry plan now r).2

theorem agrees_step {plan : Plan} {env : Env} {cred : Credentials} {time now : ℤ} {s : Store}
    {r : Registry} (hadmin : Coordinator.adminAuthorized env cred.admin = true)
    (h : Corresponds plan time s r) (ht : time ≤ now) {op : Operation} (hlease : op.LeaseOk)
    (henr : Enrolled cred s op)
    (hingest : ∀ manifest, op = .ingest manifest →
      (op.worker env cred now s).1 = (op.registry plan now r).1) :
    Agrees plan time now op s (op.worker env cred now s) (op.registry plan now r) := by
  have hauth : ∀ nodeId, op.nodeId? = some nodeId →
      Authorized { s with clock := now } (cred.node nodeId) nodeId := fun nodeId hn =>
    have hclock : SameNodes s { s with clock := now } := fun _ _ => authorized_congr rfl
    (hclock _ _).mp (henr nodeId hn)
  cases op with
  | claim nodeId requested leaseSeconds => exact agrees_claim h ht requested hlease (hauth _ rfl)
  | heartbeat nodeId code leaseSeconds => exact agrees_heartbeat h ht (hauth _ rfl) hlease
  | pauseRequest nodeId code => exact agrees_pauseRequest h ht (hauth _ rfl)
  | paused nodeId code => exact agrees_paused h ht (hauth _ rfl)
  | resume nodeId code leaseSeconds => exact agrees_resume h ht (hauth _ rfl) hlease
  | release nodeId code => exact agrees_release h ht (hauth _ rfl)
  | ingest manifest => exact agrees_ingest h ht hadmin manifest (hingest manifest rfl)

def enrolledNodes : Table Coordinator.NodeRow.nodeId :=
  ⟨[⟨"NODE-A1", Sha256.hexDigest ['t'], true, none⟩], by decide⟩

def sampleEnv : Env := ⟨some (Sha256.hexDigest ['a']), false⟩

def sampleCredentials : Credentials := ⟨fun _ => "Bearer t", "Bearer a"⟩

theorem sampleAdmin :
    Coordinator.adminAuthorized sampleEnv sampleCredentials.admin = true := by decide +kernel

/-- A claim and a heartbeat. -/
def sampleOperations : List (ℤ × Operation) :=
  [(1, .claim "NODE-A1" (some "B001") 900), (2, .heartbeat "NODE-A1" "B001" 900)]

def sampleBatch : Factory.PlanBatch :=
  Factory.batchOf 1 (Factory.sampleRows.take Factory.logicalBatchSize)

def sampleResults : Factory.BatchResults where
  gitSha := String.ofList (List.replicate 40 'a')
  runnerInputSha256 := String.ofList (List.replicate 64 'a')
  nodes := ["NODE-A1"]
  artifactSha _ := String.ofList (List.replicate 64 'a')

theorem validManifest_sample : Factory.ValidManifest Factory.samplePlan
    (Factory.batchManifest Factory.samplePlan sampleBatch sampleResults) := by
  apply Factory.validate_batchManifest
  · have hcount : (Factory.sampleRows.length + (Factory.logicalBatchSize - 1)) /
        Factory.logicalBatchSize = 13 + 1 := by
      rw [Factory.sampleRows, length_map, length_range]
      rfl
    have hbatches : Factory.samplePlan.batches = sampleBatch ::
        Factory.batchesOf 13 2 (Factory.sampleRows.drop Factory.logicalBatchSize) := by
      rw [Factory.samplePlan, Factory.batches_planOf, hcount, Factory.batchesOf, sampleBatch]
    have htext : Factory.isBatchText sampleBatch.batchCode = true :=
      Factory.isBatchText_batchCode (by decide : 1 < 1000)
    rw [Factory.batch, htext, hbatches, find?_cons_of_pos (by simp)]
    rfl
  · rw [sampleBatch, Factory.candidates_batchOf]
    rfl
  · have hhex : Sha256.isHexDigest (String.ofList (replicate 64 'a')) = true := by decide
    exact ⟨by decide, hhex, by decide, by decide, by decide, fun _ => hhex⟩

end TradingLab
