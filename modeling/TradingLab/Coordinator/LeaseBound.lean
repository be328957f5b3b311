import TradingLab.Coordinator.Protocol
import TradingLab.Factory.Names

/-!
# The lease that an operation sets

A claim, a heartbeat and a resume of the local coordinator answer with the lease
that they have written. Every stored lease is the one that the last of these wrote
for its batch: the other operations keep or clear it. A claim and a resume check
the length of the lease, and a heartbeat does not.
-/

namespace TradingLab

open List

open Factory (BatchRecord Registry Plan Bound Returned)

/-- A lease that an accepted operation has written, and when. -/
structure Grant where
  batchCode : String
  setAt : ℤ
  leaseUntil : ℤ
deriving Repr, DecidableEq

namespace Grant

/-- The lease ends 60 to 86400 seconds after it is set. -/
def InBounds (g : Grant) : Prop :=
  g.setAt + 60 * 1000 ≤ g.leaseUntil ∧ g.leaseUntil ≤ g.setAt + 86400 * 1000

theorem inBounds_iff {code : String} {now leaseSeconds : ℤ} :
    InBounds ⟨code, now, now + leaseSeconds * 1000⟩ ↔ 60 ≤ leaseSeconds ∧ leaseSeconds ≤ 86400 := by
  unfold InBounds
  dsimp only
  omega

end Grant

namespace Operation

/-- The lease in an operation's answer. -/
def grant (plan : Plan) (op : Operation) (now : ℤ) (r : Registry) : Option Grant :=
  match op with
  | claim nodeId batchCode leaseSeconds =>
      ((Factory.claimBatch plan nodeId batchCode leaseSeconds now).call r).1.toOption.map
        fun answer => ⟨answer.1, now, answer.2⟩
  | heartbeat nodeId batchCode leaseSeconds =>
      ((Factory.heartbeat plan nodeId batchCode leaseSeconds now).call r).1.toOption.map
        fun leaseUntil => ⟨batchCode, now, leaseUntil⟩
  | resume nodeId batchCode leaseSeconds =>
      ((Factory.coordinatorResume plan nodeId batchCode leaseSeconds now).call r).1.toOption.map
        fun leaseUntil => ⟨batchCode, now, leaseUntil⟩
  | _ => none

/-- A heartbeat asks for 60 to 86400 seconds. -/
def HeartbeatInBounds : Operation → Prop
  | heartbeat _ _ leaseSeconds => 60 ≤ leaseSeconds ∧ leaseSeconds ≤ 86400
  | _ => True

end Operation

/-- The registry and the leases that were written, the last one first. -/
structure LeaseHistory where
  registry : Registry
  grants : List Grant

namespace LeaseHistory

def step (plan : Plan) (s : LeaseHistory) (e : ℤ × Operation) : LeaseHistory where
  registry := (e.2.registry plan e.1 s.registry).2
  grants := (e.2.grant plan e.1 s.registry).toList ++ s.grants

def run (plan : Plan) (steps : List (ℤ × Operation)) (s : LeaseHistory) : LeaseHistory :=
  steps.foldl (step plan) s

/-- The coordinator accepts every operation. -/
def Accepted (plan : Plan) : List (ℤ × Operation) → LeaseHistory → Prop
  | [], _ => True
  | e :: steps, s => (e.2.registry plan e.1 s.registry).1 = true ∧ Accepted plan steps (s.step plan e)

/-- The last lease that was written for a batch. -/
def last? (s : LeaseHistory) (code : String) : Option Grant :=
  s.grants.find? fun g => g.batchCode = code

/-- Every stored lease is the last one written for its batch. -/
def Recorded (s : LeaseHistory) : Prop :=
  ∀ b ∈ s.registry.batches.rows, ∀ l, b.leaseUntilMs = some l →
    ∃ g, s.last? b.batchCode = some g ∧ g.leaseUntil = l

/-- Every stored lease ends 60 to 86400 seconds after the operation that set it. -/
def LeasesInBounds (s : LeaseHistory) : Prop :=
  ∀ b ∈ s.registry.batches.rows, ∀ l, b.leaseUntilMs = some l →
    ∃ g, s.last? b.batchCode = some g ∧ g.leaseUntil = l ∧ g.InBounds

/-- Before the first operation. -/
def start (plan : Plan) (now : ℤ) : LeaseHistory := ⟨initialized plan now, []⟩

end LeaseHistory

theorem call_of_returned {α : Type} {m : Factory.Call α} {r : Registry} (h : Returned m r = true) :
    ∃ a, m.call r = (.ok a, m.after r) := by
  unfold Returned at h
  unfold Method.after
  rcases hm : m.call r with ⟨x, r'⟩
  rw [hm] at h
  cases x with
  | ok a => exact ⟨a, rfl⟩
  | error e => cases h

/-- Every lease of the later registry is the one granted, or was there before. -/
def Writes (granted : Option Grant) (r r' : Registry) : Prop :=
  ∀ b' ∈ r'.batches.rows, ∀ l, b'.leaseUntilMs = some l →
    (∃ g, granted = some g ∧ g.batchCode = b'.batchCode ∧ g.leaseUntil = l) ∨
    ∃ b ∈ r.batches.rows, b.batchCode = b'.batchCode ∧ b.leaseUntilMs = some l ∧
      ∀ g, granted = some g → g.batchCode ≠ b'.batchCode

section
variable {plan : Plan} {r r' : Registry} {code : String} {f : BatchRecord → BatchRecord}
    {hf : ∀ b, (f b).batchCode = b.batchCode}

theorem writes_kept (p : BatchRecord → Bool)
    (h : ∀ b, (f b).leaseUntilMs = b.leaseUntilMs ∨ (f b).leaseUntilMs = none) :
    Writes none r (r.update p f hf) := by
  intro b' hb' l hl
  obtain ⟨b, hb, rfl⟩ := mem_map.mp hb'
  refine .inr ⟨b, hb, ?_, ?_, fun g hg => nomatch hg⟩
  · split
    · exact (hf b).symm
    · rfl
  · split at hl
    · rcases h b with hkept | hcleared
      · rw [← hkept]
        exact hl
      · rw [hcleared] at hl
        cases hl
    · exact hl

theorem writes_set {g : Grant} (h : ∀ b, (f b).leaseUntilMs = some g.leaseUntil) :
    Writes (some g) r (r.update (fun b => b.batchCode = g.batchCode) f hf) := by
  intro b' hb' l hl
  obtain ⟨b, hb, rfl⟩ := mem_map.mp hb'
  by_cases hcode : b.batchCode = g.batchCode
  · rw [if_pos (decide_eq_true hcode)] at hl ⊢
    rw [h b] at hl
    exact .inl ⟨g, rfl, by rw [hf b, hcode], Option.some.inj hl⟩
  · rw [if_neg (by simpa using hcode)] at hl ⊢
    refine .inr ⟨b, hb, rfl, hl, ?_⟩
    rintro g' hg' heq
    cases hg'
    exact hcode heq.symm

theorem Writes.after_kept {granted : Option Grant} {t : Registry} (h : Writes granted t r')
    (hkept : Writes none r t) : Writes granted r r' := by
  intro b' hb' l hl
  rcases h b' hb' l hl with hg | ⟨b, hb, hcode, hlease, hother⟩
  · exact .inl hg
  · rcases hkept b hb l hlease with ⟨g, hg, -⟩ | ⟨b₀, hb₀, hcode₀, hlease₀, -⟩
    · cases hg
    · exact .inr ⟨b₀, hb₀, hcode₀.trans hcode, hlease₀, hother⟩

variable {u : Unit} {nodeId : String} {leaseSeconds now : ℤ}

theorem call_coordinatorBound
    (h : (Factory.coordinatorBound plan).call r = (.ok u, r')) : r' = r := by
  unfold Factory.coordinatorBound at h
  rw [Method.call_read_bind, Method.call_check, Prod.mk.injEq] at h
  exact h.2.symm

theorem call_transition {allowed : BatchRecord → Bool} {message : String}
    (h : (Factory.transition plan code allowed message f hf).call r = (.ok u, r')) :
    (r.batch? code).any allowed = true ∧ r' = r.update (fun b => b.batchCode = code) f hf := by
  unfold Factory.transition at h
  rw [Method.call_atomic_eq_ok, Method.call_bind_eq_ok] at h
  obtain ⟨v, t, hbound, h⟩ := h
  obtain rfl := call_coordinatorBound hbound
  unfold Factory.selectBatch Factory.setBatch at h
  rw [Method.call_read_bind, Method.call_check_bind_eq_ok] at h
  obtain ⟨w, hallowed, h⟩ := h
  rw [raiseIf_eq_ok, Bool.not_eq_true', Bool.not_eq_false] at hallowed
  exact ⟨hallowed, Method.call_modify_eq_ok.mp h⟩

theorem call_of_node {α β : Type} {x : Except Factory.Failure α} {m : Factory.Call β}
    {b : β} (h : (do Factory.node nodeId; let _ ← Method.check x; m : Factory.Call β).call r =
      (.ok b, r')) : m.call r = (.ok b, r') := by
  unfold Factory.node at h
  rw [Method.call_check_bind_eq_ok] at h
  obtain ⟨-, -, h⟩ := h
  rw [Method.call_check_bind_eq_ok] at h
  obtain ⟨-, -, h⟩ := h
  exact h

variable {l : ℤ} {requested : Option String}

theorem call_heartbeat
    (h : (Factory.heartbeat plan nodeId code leaseSeconds now).call r = (.ok l, r')) :
    l = now + leaseSeconds * 1000 ∧ (r.batch? code).isSome = true ∧
      r' = r.update (fun b => b.batchCode = code)
        (fun b => { b with leaseUntilMs := some l, updatedAtMs := now }) fun _ => rfl := by
  have hcall := call_of_node h
  rw [Method.call_bind_eq_ok] at hcall
  obtain ⟨v, t, htransition, hpure⟩ := hcall
  obtain ⟨hallowed, rfl⟩ := call_transition htransition
  rw [Method.call_pure, Prod.mk.injEq, Except.ok.injEq] at hpure
  obtain ⟨rfl, rfl⟩ := hpure
  refine ⟨rfl, ?_, rfl⟩
  cases hrow : r.batch? code with
  | none =>
    rw [hrow] at hallowed
    cases hallowed
  | some b => rfl

theorem call_resume
    (h : (Factory.coordinatorResume plan nodeId code leaseSeconds now).call r = (.ok l, r')) :
    l = now + leaseSeconds * 1000 ∧ (60 ≤ leaseSeconds ∧ leaseSeconds ≤ 86400) ∧
      r' = r.update (fun b => b.batchCode = code)
        (fun b => { b with state := .claimed, leaseUntilMs := some l, updatedAtMs := now })
        fun _ => rfl := by
  have hcall := call_of_node h
  unfold Factory.checkLease at hcall
  rw [Method.call_check_bind_eq_ok] at hcall
  obtain ⟨v, hlease, hcall⟩ := hcall
  rw [raiseIf_eq_ok, not_or, not_lt, not_lt] at hlease
  rw [Method.call_bind_eq_ok] at hcall
  obtain ⟨v, t, htransition, hpure⟩ := hcall
  obtain ⟨-, rfl⟩ := call_transition htransition
  rw [Method.call_pure, Prod.mk.injEq, Except.ok.injEq] at hpure
  obtain ⟨rfl, rfl⟩ := hpure
  exact ⟨rfl, hlease, rfl⟩

theorem call_chooseBatch {chosen : String}
    (h : (Factory.chooseBatch plan nodeId now requested).call r = (.ok chosen, r')) : r' = r := by
  unfold Factory.chooseBatch at h
  cases requested with
  | none =>
    dsimp only at h
    rw [Method.call_read_bind] at h
    split at h
    · cases h
    · exact (Prod.mk.inj h).2.symm
  | some code =>
    dsimp only [Factory.selectBatch] at h
    rw [Method.call_check_bind_eq_ok] at h
    obtain ⟨-, -, h⟩ := h
    rw [Method.call_read_bind] at h
    split at h
    · cases h
    · exact (Prod.mk.inj h).2.symm

/-- A claim that returned. -/
theorem call_claim {answer : String × ℤ}
    (h : (Factory.claimBatch plan nodeId requested leaseSeconds now).call r = (.ok answer, r')) :
    answer.2 = now + leaseSeconds * 1000 ∧ (60 ≤ leaseSeconds ∧ leaseSeconds ≤ 86400) ∧
      r' = (r.swept now).update (fun b => b.batchCode = answer.1)
        (Factory.claimed nodeId answer.2 now) fun _ => rfl := by
  unfold Factory.claimBatch Factory.node Factory.checkLease at h
  rw [Method.call_check_bind_eq_ok] at h
  obtain ⟨-, -, h⟩ := h
  rw [Method.call_check_bind_eq_ok] at h
  obtain ⟨v, hlease, h⟩ := h
  rw [raiseIf_eq_ok, not_or, not_lt, not_lt] at hlease
  rw [Method.call_atomic_eq_ok, Method.call_bind_eq_ok] at h
  obtain ⟨v, t, hbound, h⟩ := h
  obtain rfl := call_coordinatorBound hbound
  unfold Factory.sweep at h
  rw [Method.call_modify_bind, Method.call_bind_eq_ok] at h
  obtain ⟨chosen, t', hchoose, h⟩ := h
  obtain rfl := call_chooseBatch hchoose
  unfold Factory.setBatch at h
  rw [Method.call_modify_bind, Method.call_pure, Prod.mk.injEq, Except.ok.injEq] at h
  obtain ⟨rfl, rfl⟩ := h
  exact ⟨rfl, hlease, rfl⟩

theorem call_ingest {manifest : JsonMembers}
    (h : (Factory.markIngested plan manifest now).call r = (.ok u, r')) :
    r' = r.update (fun b => b.batchCode = Factory.manifestCode manifest)
      (Factory.ingested (Factory.manifestSha manifest) now) fun _ => rfl := by
  unfold Factory.markIngested at h
  rw [Method.call_check_bind_eq_ok] at h
  obtain ⟨-, -, h⟩ := h
  rw [Method.call_atomic_eq_ok, Method.call_bind_eq_ok] at h
  obtain ⟨v, t, hbound, h⟩ := h
  obtain rfl := call_coordinatorBound hbound
  unfold Factory.selectBatch at h
  rw [Method.call_read_bind] at h
  split at h
  · cases h
  · exact Method.call_modify_eq_ok.mp h

end

section
variable {plan : Plan} {nodeId : String} {leaseSeconds now : ℤ} {r r' : Registry}

theorem grant_claim {requested : Option String} {answer : String × ℤ}
    (h : (Factory.claimBatch plan nodeId requested leaseSeconds now).call r = (.ok answer, r')) :
    (Operation.claim nodeId requested leaseSeconds).grant plan now r =
      some ⟨answer.1, now, answer.2⟩ := by
  unfold Operation.grant
  dsimp only
  rw [h]
  rfl

variable {code : String} {l : ℤ}

theorem grant_heartbeat
    (h : (Factory.heartbeat plan nodeId code leaseSeconds now).call r = (.ok l, r')) :
    (Operation.heartbeat nodeId code leaseSeconds).grant plan now r = some ⟨code, now, l⟩ := by
  unfold Operation.grant
  dsimp only
  rw [h]
  rfl

theorem grant_resume
    (h : (Factory.coordinatorResume plan nodeId code leaseSeconds now).call r = (.ok l, r')) :
    (Operation.resume nodeId code leaseSeconds).grant plan now r = some ⟨code, now, l⟩ := by
  unfold Operation.grant
  dsimp only
  rw [h]
  rfl

end

/-- What an accepted operation writes is what it answers. -/
theorem writes_of_accepted {plan : Plan} {op : Operation} {now : ℤ} {r : Registry}
    (h : (op.registry plan now r).1 = true) :
    Writes (op.grant plan now r) r (op.registry plan now r).2 := by
  cases op with
  | claim nodeId requested leaseSeconds =>
    obtain ⟨answer, hcall⟩ := call_of_returned h
    rw [grant_claim hcall]
    change Writes _ r (Method.after _ r)
    rw [(call_claim hcall).2.2]
    exact (writes_set fun _ => rfl).after_kept (writes_kept _ fun _ => .inr rfl)
  | heartbeat nodeId code leaseSeconds =>
    obtain ⟨l, hcall⟩ := call_of_returned h
    rw [grant_heartbeat hcall]
    change Writes _ r (Method.after _ r)
    rw [(call_heartbeat hcall).2.2]
    exact writes_set fun _ => rfl
  | resume nodeId code leaseSeconds =>
    obtain ⟨l, hcall⟩ := call_of_returned h
    rw [grant_resume hcall]
    change Writes _ r (Method.after _ r)
    rw [(call_resume hcall).2.2]
    exact writes_set fun _ => rfl
  | pauseRequest nodeId code =>
    obtain ⟨u, hcall⟩ := call_of_returned h
    change Writes none r (Method.after _ r)
    rw [(call_transition (call_of_node hcall)).2]
    exact writes_kept _ fun _ => .inl rfl
  | paused nodeId code =>
    obtain ⟨u, hcall⟩ := call_of_returned h
    change Writes none r (Method.after _ r)
    rw [(call_transition (call_of_node hcall)).2]
    exact writes_kept _ fun _ => .inr rfl
  | release nodeId code =>
    obtain ⟨u, hcall⟩ := call_of_returned h
    change Writes none r (Method.after _ r)
    rw [(call_transition (call_of_node hcall)).2]
    exact writes_kept _ fun _ => .inr rfl
  | ingest manifest =>
    obtain ⟨u, hcall⟩ := call_of_returned h
    change Writes none r (Method.after _ r)
    rw [call_ingest hcall]
    exact writes_kept _ fun _ => .inr rfl

/-- A lease that is granted is in bounds, unless a heartbeat asked for another one. -/
theorem inBounds_grant {plan : Plan} {op : Operation} {now : ℤ} {r : Registry}
    (h : (op.registry plan now r).1 = true) (hop : op.HeartbeatInBounds) {g : Grant}
    (hg : op.grant plan now r = some g) : g.InBounds := by
  cases op with
  | claim nodeId requested leaseSeconds =>
    obtain ⟨answer, hcall⟩ := call_of_returned h
    obtain ⟨hl, hlease, -⟩ := call_claim hcall
    rw [grant_claim hcall, Option.some.injEq] at hg
    rw [← hg, hl]
    exact Grant.inBounds_iff.mpr hlease
  | heartbeat nodeId code leaseSeconds =>
    obtain ⟨l, hcall⟩ := call_of_returned h
    rw [grant_heartbeat hcall, Option.some.injEq] at hg
    rw [← hg, (call_heartbeat hcall).1]
    exact Grant.inBounds_iff.mpr hop
  | resume nodeId code leaseSeconds =>
    obtain ⟨l, hcall⟩ := call_of_returned h
    obtain ⟨hl, hlease, -⟩ := call_resume hcall
    rw [grant_resume hcall, Option.some.injEq] at hg
    rw [← hg, hl]
    exact Grant.inBounds_iff.mpr hlease
  | _ => cases hg

namespace LeaseHistory
variable {plan : Plan} {s : LeaseHistory}

theorem recorded_start (plan : Plan) (now : ℤ) : Recorded (start plan now) := by
  intro b hb l hl
  change b ∈ (initialized plan now).batches.rows at hb
  rw [rows_initialized] at hb
  obtain ⟨item, -, rfl⟩ := mem_map.mp hb
  cases hl

theorem Recorded.step (h : Recorded s) {e : ℤ × Operation}
    (haccepted : (e.2.registry plan e.1 s.registry).1 = true) : Recorded (s.step plan e) := by
  intro b' hb' l hl
  rcases writes_of_accepted haccepted b' hb' l hl with ⟨g, hg, hcode, hlease⟩ |
      ⟨b, hb, hcode, hlease, hother⟩
  · refine ⟨g, ?_, hlease⟩
    unfold last? LeaseHistory.step
    dsimp only
    rw [hg]
    exact find?_cons_of_pos (by simpa using hcode)
  · obtain ⟨g, hg, hgl⟩ := h b hb l hlease
    refine ⟨g, ?_, hgl⟩
    rw [hcode] at hg
    unfold last? LeaseHistory.step
    dsimp only
    cases hgrant : e.2.grant plan e.1 s.registry with
    | none => exact hg
    | some granted =>
      rw [Option.toList_some, singleton_append,
        find?_cons_of_neg (by simpa using hother granted hgrant)]
      exact hg

variable {steps : List (ℤ × Operation)}

theorem Recorded.run (h : Recorded s)
    (haccepted : Accepted plan steps s) : Recorded (s.run plan steps) := by
  induction steps generalizing s with
  | nil => exact h
  | cons e steps ih => exact ih (h.step haccepted.1) haccepted.2

theorem run_append (xs ys : List (ℤ × Operation)) (s : LeaseHistory) :
    s.run plan (xs ++ ys) = (s.run plan xs).run plan ys := List.foldl_append

theorem accepted_append {xs ys : List (ℤ × Operation)} :
    Accepted plan (xs ++ ys) s ↔ Accepted plan xs s ∧ Accepted plan ys (s.run plan xs) := by
  induction xs generalizing s with
  | nil => exact ⟨fun h => ⟨trivial, h⟩, And.right⟩
  | cons e xs ih =>
    change _ ∧ Accepted plan (xs ++ ys) (s.step plan e) ↔ _
    rw [ih, ← and_assoc]
    rfl

theorem inBounds_run (haccepted : Accepted plan steps s)
    (hsteps : ∀ e ∈ steps, e.2.HeartbeatInBounds) (h : ∀ g ∈ s.grants, g.InBounds) :
    ∀ g ∈ (s.run plan steps).grants, g.InBounds := by
  induction steps generalizing s with
  | nil => exact h
  | cons e steps ih =>
    refine ih haccepted.2 (fun e' he' => hsteps e' (mem_cons_of_mem _ he')) ?_
    intro g hg
    rcases mem_append.mp hg with hnew | hold
    · exact inBounds_grant haccepted.1 (hsteps e mem_cons_self) (Option.mem_toList.mp hnew)
    · exact h g hold

theorem Recorded.leasesInBounds (h : Recorded s) (hgrants : ∀ g ∈ s.grants, g.InBounds) :
    LeasesInBounds s := by
  intro b hb l hl
  obtain ⟨g, hg, hgl⟩ := h b hb l hl
  exact ⟨g, hg, hgl, hgrants g (mem_of_find?_eq_some hg)⟩

/-- After an accepted heartbeat, the lease of its batch is the one it asked for. -/
theorem heartbeat_of_leasesInBounds {nodeId code : String} {leaseSeconds now : ℤ}
    (haccepted : ((Operation.heartbeat nodeId code leaseSeconds).registry plan now
      s.registry).1 = true)
    (h : LeasesInBounds (s.step plan (now, .heartbeat nodeId code leaseSeconds))) :
    60 ≤ leaseSeconds ∧ leaseSeconds ≤ 86400 := by
  obtain ⟨l, hcall⟩ := call_of_returned haccepted
  obtain ⟨hl, hsome, hafter⟩ := call_heartbeat hcall
  obtain ⟨b, hb⟩ := Option.isSome_iff_exists.mp hsome
  have hcode : b.batchCode = code := Table.key_of_find? hb
  have hrow : ({ b with leaseUntilMs := some l, updatedAtMs := now } : BatchRecord) ∈
      (s.step plan (now, .heartbeat nodeId code leaseSeconds)).registry.batches.rows := by
    change _ ∈ (Method.after _ s.registry).batches.rows
    rw [hafter]
    refine mem_map.mpr ⟨b, Table.mem_of_find? hb, ?_⟩
    rw [if_pos (decide_eq_true hcode)]
  obtain ⟨g, hg, -, hbounds⟩ := h _ hrow l rfl
  unfold last? LeaseHistory.step at hg
  dsimp only at hg
  rw [grant_heartbeat hcall, Option.toList_some, singleton_append,
    find?_cons_of_pos (by simpa using hcode.symm), Option.some.injEq] at hg
  rw [← hg, hl] at hbounds
  exact Grant.inBounds_iff.mp hbounds

end LeaseHistory

open LeaseHistory

/-- **Lease bound.** In a run of accepted operations from a fresh database, every stored lease of
every state ends 60 to 86400 seconds after the operation that set it, exactly when every heartbeat
asks for a lease of that length. -/
theorem leases_in_bounds_iff (plan : Plan) (now : ℤ) (steps : List (ℤ × Operation))
    (haccepted : Accepted plan steps (start plan now)) :
    (∀ initial, initial <+: steps → LeasesInBounds ((start plan now).run plan initial)) ↔
      ∀ e ∈ steps, e.2.HeartbeatInBounds := by
  constructor
  · intro h e he
    obtain ⟨initial, rest, rfl⟩ := List.append_of_mem he
    have hprefix : initial ++ [e] <+: initial ++ e :: rest := ⟨rest, by simp⟩
    have hbounds := h _ hprefix
    have hstep := (accepted_append.mp haccepted).2.1
    rw [run_append] at hbounds
    obtain ⟨time, op⟩ := e
    cases op with
    | heartbeat nodeId code leaseSeconds => exact heartbeat_of_leasesInBounds hstep hbounds
    | _ => exact trivial
  · rintro h initial ⟨rest, rfl⟩
    have hinitial := (accepted_append.mp haccepted).1
    exact ((recorded_start plan now).run hinitial).leasesInBounds
      (inBounds_run hinitial (fun e he => h e (List.mem_append_left _ he)) (fun g hg => nomatch hg))

/-- A node claims a batch of a fresh database and sends a heartbeat a second later. -/
def claimAndHeartbeat (nodeId code : String) (leaseSeconds : ℤ) : List (ℤ × Operation) :=
  [(0, .claim nodeId (some code) 900), (1000, .heartbeat nodeId code leaseSeconds)]

/-- Both are accepted, whatever lease the heartbeat asks for. -/
theorem accepted_claimAndHeartbeat {plan : Plan} {nodeId code : String}
    (hnode : Factory.isNode nodeId = true) (hcode : code ∈ plan.codes) (leaseSeconds : ℤ) :
    Accepted plan (claimAndHeartbeat nodeId code leaseSeconds) (start plan 0) := by
  have hbound : Bound plan (initialized plan 0) :=
    (corresponds_seeded plan Table.empty 0 0).bound
  obtain ⟨b, hb⟩ := Option.isSome_iff_exists.mp (hbound.isSome_batch?.mpr hcode)
  have hstate : b.state = .available := by
    have hmem : b ∈ (initialized plan 0).batches.rows := Table.mem_of_find? hb
    rw [rows_initialized] at hmem
    obtain ⟨item, -, rfl⟩ := mem_map.mp hmem
    rfl
  have hswept : ((initialized plan 0).swept 0).batch? code = some b := by
    have hfind := (initialized plan 0).batches.find?_update
      (fun b => b.state = .claimed ∧ b.leaseUntilMs.any (· < 0))
      (fun b => { b with state := .available, ownerNode := none, leaseUntilMs := none,
                         updatedAtMs := 0 }) (fun _ => rfl) code
    have hb' : (initialized plan 0).batches.find? code = some b := hb
    rw [hb', Option.map_some, if_neg (by simp [hstate])] at hfind
    exact hfind
  obtain ⟨hreturned, hafter⟩ := Factory.claimBatch_spec hbound hnode (some code)
    (by decide : (60 : ℤ) ≤ 900 ∧ (900 : ℤ) ≤ 86400) 0
  rw [hswept, Option.any_some, Factory.claimable_iff.mpr (.inl hstate)] at hreturned
  rw [if_pos hreturned] at hafter
  refine ⟨hreturned, ?_, trivial⟩
  let r := (Factory.claimBatch plan nodeId (some code) 900 0).after (initialized plan 0)
  have hrow : r.batch? code = some (Factory.claimed nodeId (0 + 900 * 1000) 0 b) := by
    have hfind := ((initialized plan 0).swept 0).batches.find?_update
      (fun b => b.batchCode = code) (Factory.claimed nodeId (0 + 900 * 1000) 0) (fun _ => rfl) code
    have hb' : ((initialized plan 0).swept 0).batches.find? code = some b := hswept
    rw [hb', Option.map_some, if_pos (decide_eq_true (Table.key_of_find? hb))] at hfind
    change Registry.batch? (Method.after _ _) code = _
    rw [hafter]
    exact hfind
  have hr : Bound plan r := by
    change Bound plan (Method.after _ _)
    rw [hafter]
    exact (hbound.swept 0).update _ _ _
  have hheartbeat := (Factory.moves_heartbeat code leaseSeconds 1000 hr hnode).returned
  rw [hrow, Option.any_some] at hheartbeat
  refine hheartbeat.trans ?_
  simp [Factory.holdsLease, Factory.claimed]

theorem mem_codes_sample : "B001" ∈ Factory.samplePlan.codes := by
  by_contra hcode
  obtain ⟨e, he⟩ := Factory.batch_eq_error hcode
  have hbatch : Factory.batch Factory.samplePlan "B001" = .ok Factory.sampleBatch :=
    Factory.batch_sample
  rw [hbatch] at he
  cases he

theorem leases_in_bounds_sample :
    (∀ initial, initial <+: claimAndHeartbeat "NODE-A1" "B001" 900 → LeasesInBounds
      ((start Factory.samplePlan 0).run Factory.samplePlan initial)) ↔
      ∀ e ∈ claimAndHeartbeat "NODE-A1" "B001" 900, e.2.HeartbeatInBounds :=
  leases_in_bounds_iff Factory.samplePlan 0 _
    (accepted_claimAndHeartbeat (by decide) mem_codes_sample 900)

/-- A heartbeat is accepted that asks for a lease of a week. -/
theorem lease_of_a_week :
    let steps := claimAndHeartbeat "NODE-A1" "B001" 604800
    Accepted Factory.samplePlan steps (start Factory.samplePlan 0) ∧
      ¬ LeasesInBounds ((start Factory.samplePlan 0).run Factory.samplePlan steps) := by
  have haccepted : Accepted Factory.samplePlan (claimAndHeartbeat "NODE-A1" "B001" 604800)
      (start Factory.samplePlan 0) :=
    accepted_claimAndHeartbeat (by decide) mem_codes_sample 604800
  refine ⟨haccepted, fun h => ?_⟩
  have hbounds := heartbeat_of_leasesInBounds haccepted.2.1 h
  exact absurd hbounds.2 (by decide)

end TradingLab
