import TradingLab.Coordinator.Worker
import TradingLab.Factory.Coordinator

/-!
# What a call of the local coordinator does

On a registry that is bound to the plan, a call about a batch changes the row of
that batch when the row allows it, and raises otherwise.
-/

namespace TradingLab.Factory

open List Method

open Coordinator (BatchState)

variable {α : Type} {index : ℕ} {manifest : JsonMembers}

theorem checkEach_of_mem {check : ℕ → α → Except Failure Unit} {n : ℕ} {as : List α}
    (h : checkEach check n as = .ok ()) {a : α} (ha : a ∈ as) : ∃ i, check i a = .ok () := by
  induction as generalizing n with
  | nil => cases ha
  | cons b as ih =>
    rw [checkEach, unit_bind_eq_ok] at h
    rcases mem_cons.mp ha with rfl | ha
    · exact ⟨n, h.1⟩
    · exact ih h.2 ha

theorem paddedDigits_three : ∀ index < 1000,
    ((paddedDigits 3 index).all Coordinator.isDigit && (paddedDigits 3 index).length == 3) = true := by
  decide +kernel

theorem digitsValue_paddedDigits : ∀ index < 1000, digitsValue (paddedDigits 3 index) = index := by
  decide +kernel

theorem isBatchCode_batchCode (h : index < 1000) :
    Coordinator.isBatchCode (batchCode index) = true := by
  unfold Coordinator.isBatchCode batchCode
  rw [String.toList_ofList]
  exact paddedDigits_three index h

theorem isDecimalDigit_of_isDigit {c : Char} (h : Coordinator.isDigit c = true) :
    isDecimalDigit c = true := by
  unfold Coordinator.isDigit at h
  unfold isDecimalDigit
  rw [any_eq_true]
  refine ⟨48, by decide, ?_⟩
  rw [Bool.and_eq_true, decide_eq_true_eq, decide_eq_true_eq] at h ⊢
  exact ⟨h.1, Nat.lt_succ_of_le h.2⟩

theorem isBatchText_batchCode (h : index < 1000) :
    isBatchText (batchCode index) = true := by
  have hdigits := paddedDigits_three index h
  rw [Bool.and_eq_true, all_eq_true] at hdigits
  unfold isBatchText batchCode
  rw [String.toList_ofList]
  change ((paddedDigits 3 index).length == 3 && (paddedDigits 3 index).all isDecimalDigit) = true
  rw [Bool.and_eq_true, all_eq_true]
  exact ⟨hdigits.2, fun c hc => isDecimalDigit_of_isDigit (hdigits.1 c hc)⟩

namespace Plan

def codes (plan : Plan) : List String := plan.batches.map PlanBatch.batchCode

theorem code_number (plan : Plan) {code : String} (h : code ∈ plan.codes) :
    ∃ index < 1000, code = batchCode index := by
  obtain ⟨b, hb, rfl⟩ := mem_map.mp h
  have hvalid := plan.valid
  unfold Plan.Fields.validate at hvalid
  rw [raiseIf_bind_eq_ok, unit_bind_eq_ok] at hvalid
  obtain ⟨index, hindex⟩ := checkEach_of_mem hvalid.2.1 hb
  unfold validateBatch at hindex
  rw [raiseIf_bind_eq_ok, not_or, not_not] at hindex
  exact ⟨index, by omega, hindex.1.1⟩

theorem codes_of_checkEach {n : ℕ} {bs : List PlanBatch}
    (h : checkEach validateBatch n bs = .ok ()) :
    bs.map PlanBatch.batchCode = (List.range' n bs.length).map Factory.batchCode ∧
      ∀ index ∈ List.range' n bs.length, index < 1000 := by
  induction bs generalizing n with
  | nil => exact ⟨rfl, fun index hindex => by cases hindex⟩
  | cons b bs ih =>
    rw [checkEach, unit_bind_eq_ok] at h
    obtain ⟨hcodes, hlt⟩ := ih h.2
    have hb := h.1
    unfold validateBatch at hb
    rw [raiseIf_bind_eq_ok, not_or, not_not] at hb
    refine ⟨?_, ?_⟩
    · rw [map_cons, length_cons, range'_succ, map_cons, hcodes, hb.1.1]
    · intro index hindex
      rw [length_cons, range'_succ] at hindex
      rcases mem_cons.mp hindex with rfl | hindex
      · omega
      · exact hlt index hindex

theorem nodup_codes (plan : Plan) : plan.codes.Nodup := by
  have hvalid := plan.valid
  unfold Plan.Fields.validate at hvalid
  rw [raiseIf_bind_eq_ok, unit_bind_eq_ok] at hvalid
  obtain ⟨hcodes, hlt⟩ := codes_of_checkEach hvalid.2.1
  rw [codes, hcodes]
  apply Nodup.map_on _ nodup_range'
  intro i hi j hj hij
  have hchars := (List.cons.inj (String.ofList_injective hij)).2
  rw [← digitsValue_paddedDigits i (hlt i hi), ← digitsValue_paddedDigits j (hlt j hj), hchars]

theorem isBatchCode_code (plan : Plan) {code : String} (h : code ∈ plan.codes) :
    Coordinator.isBatchCode code = true := by
  obtain ⟨index, hlt, rfl⟩ := plan.code_number h
  exact isBatchCode_batchCode hlt

end Plan

theorem batch_eq_ok {plan : Plan} {code : String} (h : code ∈ plan.codes) :
    ∃ b, batch plan code = .ok b := by
  have htext : isBatchText code = true := by
    obtain ⟨index, hlt, rfl⟩ := plan.code_number h
    exact isBatchText_batchCode hlt
  obtain ⟨b, hb, hcode⟩ := mem_map.mp h
  have hfind : (plan.batches.find? fun b => b.batchCode = code).isSome = true := by
    rw [find?_isSome]
    exact ⟨b, hb, decide_eq_true hcode⟩
  obtain ⟨found, hfound⟩ := Option.isSome_iff_exists.mp hfind
  refine ⟨found, ?_⟩
  unfold batch
  rw [htext, hfound]
  rfl

theorem batch_eq_error {plan : Plan} {code : String} (h : code ∉ plan.codes) :
    ∃ e, batch plan code = .error e := by
  have hfind : (plan.batches.find? fun b => b.batchCode = code) = none := by
    rw [find?_eq_none]
    intro b hb hcode
    exact h (mem_map.mpr ⟨b, hb, of_decide_eq_true hcode⟩)
  unfold batch
  rw [hfind]
  cases isBatchText code with
  | true => exact ⟨_, rfl⟩
  | false => exact ⟨_, rfl⟩

/-- The registry belongs to the plan and lists its batches. -/
structure Bound (plan : Plan) (r : Registry) : Prop where
  schema : r.schema = some coordinatorSchema
  planSha256 : r.planSha256 = some plan.planSha256
  codes : r.batches.rows.map BatchRecord.batchCode = plan.codes

theorem Bound.update {plan : Plan} {r : Registry} (h : Bound plan r) (p : BatchRecord → Bool)
    (f : BatchRecord → BatchRecord) (hf : ∀ b, (f b).batchCode = b.batchCode) :
    Bound plan (r.update p f hf) where
  schema := h.schema
  planSha256 := h.planSha256
  codes := by
    rw [← h.codes]
    change (r.batches.rows.map _).map BatchRecord.batchCode = _
    rw [map_map]
    apply map_congr_left
    intro b _
    change (if p b then f b else b).batchCode = b.batchCode
    split
    · exact hf b
    · rfl

def Returned {α : Type} (m : Call α) (r : Registry) : Bool :=
  match (m.call r).1 with
  | .ok _ => true
  | .error _ => false

/-- The call changes the row of a batch when the row allows it, and raises otherwise. -/
structure Moves {α : Type} (m : Call α) (r : Registry) (code : String)
    (allowed : BatchRecord → Bool) (f : BatchRecord → BatchRecord)
    (hf : ∀ b, (f b).batchCode = b.batchCode) : Prop where
  returned : Returned m r = (r.batch? code).any allowed
  after : m.after r = r.update (fun b => b.batchCode = code && allowed b) f hf

section
variable {plan : Plan} {r : Registry} {code : String} {allowed : BatchRecord → Bool}
    {f : BatchRecord → BatchRecord} {hf : ∀ b, (f b).batchCode = b.batchCode}

theorem Bound.call (h : Bound plan r) : (coordinatorBound plan).call r = (.ok (), r) := by
  unfold coordinatorBound
  rw [call_read_bind, call_check, raiseIf_neg]
  rw [h.schema, h.planSha256]
  simp

theorem Bound.isSome_batch? (h : Bound plan r) : (r.batch? code).isSome = true ↔ code ∈ plan.codes := by
  rw [← h.codes, mem_map]
  constructor
  · intro hs
    obtain ⟨b, hb⟩ := Option.isSome_iff_exists.mp hs
    exact ⟨b, Table.mem_of_find? hb, Table.key_of_find? hb⟩
  · rintro ⟨b, hb, rfl⟩
    rw [Registry.batch?, Table.find?_of_mem hb]
    rfl

variable {α : Type} {m : Call α} {e : Failure}

theorem moves_of_returned {a : α} (hall : (r.batch? code).any allowed = true)
    (hcall : m.call r = (.ok a, r.update (fun b => b.batchCode = code) f hf)) :
    Moves m r code allowed f hf := by
  have hupdate := Table.update_of_find? r.batches code allowed f hf
  rw [Registry.batch?] at hall
  rw [if_pos hall] at hupdate
  refine ⟨?_, ?_⟩
  · unfold Returned
    rw [hcall, Registry.batch?, hall]
  · unfold Method.after
    rw [hcall, Registry.update, Registry.update, ← hupdate]

theorem moves_of_raised
    (hall : (r.batch? code).any allowed = false) (hcall : m.call r = (.error e, r)) :
    Moves m r code allowed f hf := by
  have hupdate := Table.update_of_find? r.batches code allowed f hf
  rw [Registry.batch?] at hall
  rw [if_neg (by rw [hall]; exact Bool.false_ne_true)] at hupdate
  refine ⟨?_, ?_⟩
  · unfold Returned
    rw [hcall, Registry.batch?, hall]
  · unfold Method.after
    rw [hcall]
    change r = { r with batches := r.batches.update _ f hf }
    rw [← hupdate]

theorem moves_transition (h : Bound plan r) (message : String) :
    Moves (transition plan code allowed message f hf) r code allowed f hf := by
  cases hall : (r.batch? code).any allowed with
  | true =>
    apply moves_of_returned (a := ()) hall
    unfold transition
    rw [call_atomic_eq_ok, call_bind, h.call]
    dsimp only [selectBatch]
    rw [call_read_bind, hall]
    rfl
  | false =>
    apply moves_of_raised (e := .mcf message) hall
    unfold transition
    rw [call_atomic, call_bind, h.call]
    dsimp only [selectBatch]
    rw [call_read_bind, hall]
    rfl

theorem moves_missing (h : Bound plan r)
    (hcode : code ∉ plan.codes) (hm : m.call r = (.error e, r)) : Moves m r code allowed f hf := by
  have hnone : r.batch? code = none := by
    rw [← Option.not_isSome_iff_eq_none, h.isSome_batch?]
    exact hcode
  apply moves_of_raised _ hm
  rw [hnone]
  rfl

theorem moves_call (h : Bound plan r) {nodeId : String} (hnode : isNode nodeId = true)
    (hm : Moves m r code allowed f hf) :
    Moves (do node nodeId; let _ ← Method.check (batch plan code); m) r code allowed f hf := by
  have hcall : ∀ k : Call α, (node nodeId >>= fun _ => k).call r = k.call r := by
    intro k
    rw [call_bind, node, call_check, raiseIf_neg (by rw [hnode]; simp)]
  by_cases hc : code ∈ plan.codes
  · obtain ⟨b, hb⟩ := batch_eq_ok hc
    have heq : (do node nodeId; let _ ← Method.check (batch plan code); m : Call α).call r =
        m.call r := by
      rw [hcall, call_bind, call_check, hb]
    refine ⟨?_, ?_⟩
    · unfold Returned
      rw [heq]
      exact hm.returned
    · unfold Method.after
      rw [heq]
      exact hm.after
  · obtain ⟨e, he⟩ := batch_eq_error hc
    apply moves_missing h hc
    rw [hcall, call_bind, call_check, he]

theorem moves_pure {β : Type} {b : β} (hm : Moves m r code allowed f hf) :
    Moves (do let _ ← m; pure b) r code allowed f hf := by
  have hcall : (do let _ ← m; pure b : Call β).call r = match m.call r with
      | (.ok _, r') => (.ok b, r')
      | (.error e, r') => (.error e, r') := by
    rw [call_bind]
    rcases m.call r with ⟨x, r'⟩
    cases x with
    | ok a => rfl
    | error e => rfl
  have hret := hm.returned
  have hafter := hm.after
  unfold Returned at hret
  unfold Method.after at hafter
  rcases hr : m.call r with ⟨x, r'⟩
  rw [hr] at hcall hret hafter
  cases x with
  | ok a =>
    refine ⟨?_, ?_⟩
    · unfold Returned
      rw [hcall]
      exact hret
    · unfold Method.after
      rw [hcall]
      exact hafter
  | error e =>
    refine ⟨?_, ?_⟩
    · unfold Returned
      rw [hcall]
      exact hret
    · unfold Method.after
      rw [hcall]
      exact hafter

theorem moves_checkLease {leaseSeconds : ℤ}
    (hlease : 60 ≤ leaseSeconds ∧ leaseSeconds ≤ 86400) (hm : Moves m r code allowed f hf) :
    Moves (do checkLease leaseSeconds; m) r code allowed f hf := by
  have hcall : (do checkLease leaseSeconds; m : Call α).call r = m.call r := by
    rw [call_bind, checkLease, call_check, raiseIf_neg (by omega)]
  refine ⟨?_, ?_⟩
  · unfold Returned
    rw [hcall]
    exact hm.returned
  · unfold Method.after
    rw [hcall]
    exact hm.after

end

section
variable {plan : Plan} {r : Registry} {nodeId : String} (code : String) (leaseSeconds now : ℤ)
    (h : Bound plan r) (hnode : isNode nodeId = true)
include h hnode

theorem moves_heartbeat : Moves (heartbeat plan nodeId code leaseSeconds now) r code
    (holdsLease nodeId now)
    (fun b => { b with leaseUntilMs := some (now + leaseSeconds * 1000), updatedAtMs := now })
    fun _ => rfl :=
  moves_call h hnode (moves_pure (moves_transition h _))

theorem moves_pauseRequest : Moves (coordinatorPauseRequest plan nodeId code now) r code
    (holdsLease nodeId now) (fun b => { b with state := .pauseRequested, updatedAtMs := now })
    fun _ => rfl :=
  moves_call h hnode (moves_transition h _)

theorem moves_markPaused : Moves (coordinatorMarkPaused plan nodeId code now) r code
    (fun row => row.state = .pauseRequested ∧ row.ownerNode = some nodeId)
    (fun b => { b with state := .paused, leaseUntilMs := none, updatedAtMs := now })
    fun _ => rfl :=
  moves_call h hnode (moves_transition h _)

theorem moves_resume {leaseSeconds : ℤ} (hlease : 60 ≤ leaseSeconds ∧ leaseSeconds ≤ 86400) :
    Moves (coordinatorResume plan nodeId code leaseSeconds now) r code
      (fun row => row.state = .paused ∧ row.ownerNode = some nodeId)
      (fun b => { b with state := .claimed, leaseUntilMs := some (now + leaseSeconds * 1000),
                         updatedAtMs := now })
      fun _ => rfl :=
  moves_call h hnode (moves_checkLease hlease (moves_pure (moves_transition h _)))

/-- What a node can release. -/
def releasable (nodeId : String) (row : BatchRecord) : Bool :=
  row.ownerNode = some nodeId ∧
    (row.state = .claimed ∨ row.state = .pauseRequested ∨ row.state = .paused)

theorem moves_release : Moves (coordinatorRelease plan nodeId code now) r code (releasable nodeId)
    (fun b => { b with state := .available, ownerNode := none, leaseUntilMs := none,
                       updatedAtMs := now })
    fun _ => rfl :=
  moves_call h hnode (moves_transition h _)

end

/-- The call raises and changes nothing. -/
def Raises {α : Type} (m : Call α) (r : Registry) : Prop := ∃ e, m.call r = (.error e, r)

theorem Raises.check_bind {β : Type} {x : Except Failure α} {f : α → Call β} {r : Registry}
    (h : ∀ a, x = .ok a → Raises (f a) r) : Raises (Method.check x >>= f) r := by
  unfold Raises
  rw [call_bind, call_check]
  cases hx : x with
  | ok a => exact h a hx
  | error e => exact ⟨e, rfl⟩

theorem raises_checkLease {f : Unit → Call α} {leaseSeconds : ℤ}
    (hlease : ¬ (60 ≤ leaseSeconds ∧ leaseSeconds ≤ 86400)) (r : Registry) :
    Raises (checkLease leaseSeconds >>= f) r := by
  apply Raises.check_bind
  intro u hu
  rw [raiseIf_eq_ok] at hu
  omega

theorem resume_invalid (plan : Plan) (r : Registry) (nodeId code : String) {leaseSeconds : ℤ}
    (hlease : ¬ (60 ≤ leaseSeconds ∧ leaseSeconds ≤ 86400)) (now : ℤ) :
    Raises (coordinatorResume plan nodeId code leaseSeconds now) r :=
  Raises.check_bind fun _ _ => Raises.check_bind fun _ _ => raises_checkLease hlease r

theorem claim_invalid (plan : Plan) (r : Registry) (nodeId : String) (requested : Option String)
    {leaseSeconds : ℤ} (hlease : ¬ (60 ≤ leaseSeconds ∧ leaseSeconds ≤ 86400)) (now : ℤ) :
    Raises (claimBatch plan nodeId requested leaseSeconds now) r :=
  Raises.check_bind fun _ _ => raises_checkLease hlease r

theorem Raises.returned {m : Call α} {r : Registry} (h : Raises m r) :
    Returned m r = false ∧ m.after r = r := by
  obtain ⟨e, he⟩ := h
  unfold Returned Method.after
  rw [he]
  exact ⟨rfl, rfl⟩

namespace Registry

/-- The batch that a claim gets. -/
def target (r : Registry) (requested : Option String) : Option String :=
  match requested with
  | some code => some code
  | none => firstAvailable r

end Registry

theorem firstAvailable_row {r : Registry} {code : String} (h : firstAvailable r = some code) :
    ∃ b, r.batch? code = some b ∧ b.state = .available := by
  unfold firstAvailable at h
  dsimp only at h
  have hmem := mem_of_mem_head? h
  rw [mem_insertionSort, mem_map] at hmem
  obtain ⟨b, hb, rfl⟩ := hmem
  rw [mem_filter] at hb
  exact ⟨b, Table.find?_of_mem hb.1, of_decide_eq_true hb.2⟩

theorem Bound.swept {plan : Plan} {r : Registry} (h : Bound plan r) (now : ℤ) :
    Bound plan (r.swept now) := h.update _ _ _

def claimable (nodeId : String) (now : ℤ) (b : BatchRecord) : Bool :=
  (claimRefusal nodeId now (some b)).isNone

theorem claimable_iff {nodeId : String} {now : ℤ} {b : BatchRecord} :
    claimable nodeId now b = true ↔ b.state = .available ∨ b.state = .claimed ∧
      (b.ownerNode = some nodeId ∨ b.leaseUntilMs.getD 0 < now) := by
  unfold claimable claimRefusal
  cases hst : b.state with
  | claimed =>
    by_cases hown : b.ownerNode = some nodeId
    · simp [hst, hown]
    · simp [hst, hown]
  | _ => simp [hst]

def claimed (nodeId : String) (leaseUntil now : ℤ) (b : BatchRecord) : BatchRecord :=
  { b with state := .claimed, ownerNode := some nodeId, leaseUntilMs := some leaseUntil,
           updatedAtMs := now }

/-- How a claim's choice of a batch ends. -/
theorem call_chooseBatch {plan : Plan} {r : Registry} (h : Bound plan r) (nodeId : String)
    (now : ℤ) (requested : Option String) :
    match r.target requested with
    | none => ∃ e, (chooseBatch plan nodeId now requested).call r = (.error e, r)
    | some code =>
        if (r.batch? code).any (claimable nodeId now) then
          (chooseBatch plan nodeId now requested).call r = (.ok code, r)
        else ∃ e, (chooseBatch plan nodeId now requested).call r = (.error e, r) := by
  cases requested with
  | none =>
    have hcall : (chooseBatch plan nodeId now none).call r = match firstAvailable r with
        | none => (.error (.mcf "no available distributed batch"), r)
        | some code => (.ok code, r) := by
      unfold chooseBatch
      rw [call_read_bind]
      cases firstAvailable r with
      | none => rfl
      | some code => rfl
    dsimp only [Registry.target]
    rw [hcall]
    cases hf : firstAvailable r with
    | none => exact ⟨_, rfl⟩
    | some code =>
      obtain ⟨b, hb, hst⟩ := firstAvailable_row hf
      have hclaim : (r.batch? code).any (claimable nodeId now) = true := by
        rw [hb, Option.any_some]
        simp [claimable, claimRefusal, hst]
      dsimp only
      rw [if_pos hclaim]
  | some code =>
    dsimp only [Registry.target]
    by_cases hc : code ∈ plan.codes
    · obtain ⟨item, hitem⟩ := batch_eq_ok hc
      have hcall : (chooseBatch plan nodeId now (some code)).call r =
          match claimRefusal nodeId now (r.batch? code) with
          | some message => (.error (.mcf message), r)
          | none => (.ok code, r) := by
        unfold chooseBatch
        rw [call_bind, call_check, hitem]
        dsimp only [selectBatch]
        rw [call_read_bind]
        cases claimRefusal nodeId now (r.batch? code) with
        | none => rfl
        | some message => rfl
      obtain ⟨b, hb⟩ := Option.isSome_iff_exists.mp (h.isSome_batch?.mpr hc)
      rw [hcall, hb, Option.any_some]
      unfold claimable
      cases claimRefusal nodeId now (some b) with
      | none => simp
      | some message => simp
    · obtain ⟨e, he⟩ := batch_eq_error hc
      have hnone : r.batch? code = none := by
        rw [← Option.not_isSome_iff_eq_none, h.isSome_batch?]
        exact hc
      rw [hnone, if_neg (by simp)]
      refine ⟨e, ?_⟩
      unfold chooseBatch
      rw [call_bind, call_check, he]

/-- A claim: the expired leases are cleared, and then the batch that it gets is claimed. A claim
that gets none changes nothing, not even an expired lease. -/
theorem claimBatch_spec {plan : Plan} {r : Registry} (h : Bound plan r) {nodeId : String}
    (hnode : isNode nodeId = true) (requested : Option String) {leaseSeconds : ℤ}
    (hlease : 60 ≤ leaseSeconds ∧ leaseSeconds ≤ 86400) (now : ℤ) :
    let m := claimBatch plan nodeId requested leaseSeconds now
    match (r.swept now).target requested with
    | none => Returned m r = false ∧ m.after r = r
    | some code =>
        Returned m r = ((r.swept now).batch? code).any (claimable nodeId now) ∧
        m.after r = if Returned m r then
          (r.swept now).update (fun b => b.batchCode = code)
            (claimed nodeId (now + leaseSeconds * 1000) now) fun _ => rfl
        else r := by
  intro m
  have hcall : m.call r = match (chooseBatch plan nodeId now requested).call (r.swept now) with
      | (.ok code, t) => (.ok (code, now + leaseSeconds * 1000),
          t.update (fun b => b.batchCode = code) (claimed nodeId (now + leaseSeconds * 1000) now)
            fun _ => rfl)
      | (.error e, _) => (.error e, r) := by
    change (claimBatch plan nodeId requested leaseSeconds now).call r = _
    unfold claimBatch
    rw [call_bind, node, call_check, raiseIf_neg (by rw [hnode]; simp)]
    dsimp only
    rw [call_bind, checkLease, call_check, raiseIf_neg (by omega)]
    dsimp only
    rw [call_atomic, call_bind, h.call]
    dsimp only
    have hsweep : (sweep now).call r = (.ok (), r.swept now) := rfl
    rw [call_bind, hsweep]
    dsimp only
    rw [call_bind]
    rcases (chooseBatch plan nodeId now requested).call (r.swept now) with ⟨x, t⟩
    cases x with
    | ok code => rfl
    | error e => rfl
  have hchoose := call_chooseBatch (h.swept now) nodeId now requested
  cases ht : (r.swept now).target requested with
  | none =>
    rw [ht] at hchoose
    obtain ⟨e, he⟩ := hchoose
    rw [he] at hcall
    unfold Returned Method.after
    rw [hcall]
    exact ⟨rfl, rfl⟩
  | some code =>
    rw [ht] at hchoose
    dsimp only at hchoose ⊢
    split at hchoose
    · rename_i hclaim
      rw [hchoose] at hcall
      unfold Returned Method.after
      rw [hcall, hclaim]
      exact ⟨rfl, rfl⟩
    · rename_i hclaim
      obtain ⟨e, he⟩ := hchoose
      rw [he] at hcall
      rw [Bool.not_eq_true] at hclaim
      unfold Returned Method.after
      rw [hcall, hclaim]
      exact ⟨rfl, rfl⟩

def ingestable (manifestSha : String) (b : BatchRecord) : Bool :=
  (ingestRefusal manifestSha (some b)).isNone

def ingested (manifestSha : String) (now : ℤ) (b : BatchRecord) : BatchRecord :=
  { b with state := .ingested, ownerNode := none, leaseUntilMs := none, updatedAtMs := now,
           ingestedManifestSha256 := some manifestSha }

def ValidManifest (plan : Plan) (manifest : JsonMembers) : Prop :=
  validateBatchManifestStructure plan manifest = .ok ()

theorem ValidManifest.code {plan : Plan} (h : ValidManifest plan manifest) :
    manifestCode manifest ∈ plan.codes := by
  by_contra hcode
  obtain ⟨e, he⟩ := batch_eq_error hcode
  unfold ValidManifest validateBatchManifestStructure at h
  unfold manifestCode at he
  dsimp only at h
  rw [he] at h
  cases h

theorem ValidManifest.sha {plan : Plan} (h : ValidManifest plan manifest) :
    Sha256.isHexDigest (manifestSha manifest) = true := by
  unfold ValidManifest validateBatchManifestStructure at h
  dsimp only at h
  obtain ⟨frozen, -, h⟩ := bind_eq_ok.mp h
  obtain ⟨expected, -, h⟩ := bind_eq_ok.mp h
  rw [raiseIf_bind_eq_ok] at h
  obtain ⟨d, hd, h⟩ := bind_eq_ok.mp h.2
  rw [raiseIf_bind_eq_ok, not_not] at h
  unfold manifestSha
  rw [h.1]
  change Sha256.isHexDigest d = true
  unfold digestOf at hd
  split at hd
  · cases hd
  · cases hd
    exact Json.isHexDigest_digest _

theorem markIngested_invalid {plan : Plan}
    (hm : ¬ ValidManifest plan manifest) (r : Registry) (now : ℤ) :
    Raises (markIngested plan manifest now) r :=
  Raises.check_bind fun _ hv => (hm hv).elim

theorem call_markIngested {plan : Plan} {r : Registry} (h : Bound plan r)
    (hm : ValidManifest plan manifest) (now : ℤ) : (markIngested plan manifest now).call r =
      match ingestRefusal (manifestSha manifest) (r.batch? (manifestCode manifest)) with
      | some message => (.error (.mcf message), r)
      | none => (.ok (), r.update (fun b => b.batchCode = manifestCode manifest)
          (ingested (manifestSha manifest) now) fun _ => rfl) := by
  unfold ValidManifest at hm
  unfold markIngested
  rw [call_bind, call_check, hm]
  dsimp only
  rw [call_atomic, call_bind, h.call]
  dsimp only [selectBatch]
  rw [call_read_bind]
  cases ingestRefusal (manifestSha manifest) (r.batch? (manifestCode manifest)) with
  | none => rfl
  | some message => rfl

theorem markIngested_moves {plan : Plan} {r : Registry} (h : Bound plan r)
    (hm : ValidManifest plan manifest) (now : ℤ) :
    Moves (markIngested plan manifest now) r (manifestCode manifest)
      (ingestable (manifestSha manifest)) (ingested (manifestSha manifest) now) fun _ => rfl := by
  have hcall := call_markIngested h hm now
  cases hrow : r.batch? (manifestCode manifest) with
  | none =>
    rw [hrow] at hcall
    apply moves_of_raised _ hcall
    rw [hrow]
    rfl
  | some b =>
    rw [hrow] at hcall
    have hable : (r.batch? (manifestCode manifest)).any (ingestable (manifestSha manifest)) =
        (ingestRefusal (manifestSha manifest) (some b)).isNone := by
      rw [hrow]
      rfl
    cases href : ingestRefusal (manifestSha manifest) (some b) with
    | none =>
      rw [href] at hcall hable
      exact moves_of_returned hable hcall
    | some message =>
      rw [href] at hcall hable
      exact moves_of_raised hable hcall

end TradingLab.Factory
