import TradingLab.Coordinator.Effects
import TradingLab.Factory.Transitions

/-!
# The two coordinators in lockstep

The coordinator of the network and the one of a single machine list the same
batches. Two rows correspond when they agree in state, owner and lease, or when
the lease has expired and only the local coordinator has cleared it.
-/

namespace TradingLab

open Interleaving
open Coordinator (BatchRow BatchState Store Update Env accepted Authorized machine)
open Factory (BatchRecord Registry Plan Bound Returned Moves)

/-- Status, owner and lease agree. -/
def SameView (j : BatchRow) (p : BatchRecord) : Prop :=
  p.state = j.state ∧ p.ownerNode = j.ownerNode ∧ p.leaseUntilMs = j.leaseUntilMs

/-- The lease expired before the given time, and the local coordinator cleared it. -/
def SweptView (time : ℤ) (j : BatchRow) (p : BatchRecord) : Prop :=
  j.state = .claimed ∧ j.leaseUntilMs.any (· < time) = true ∧
    p.state = .available ∧ p.ownerNode = none ∧ p.leaseUntilMs = none

structure RowCorresponds (time : ℤ) (j : BatchRow) (p : BatchRecord) : Prop where
  code : p.batchCode = j.batchCode
  lease : j.state = .claimed → j.leaseUntilMs.isSome = true
  view : SameView j p ∨ SweptView time j p

theorem RowCorresponds.later {time now : ℤ} {j : BatchRow} {p : BatchRecord} (ht : time ≤ now)
    (h : RowCorresponds time j p) : RowCorresponds now j p where
  code := h.code
  lease := h.lease
  view := by
    rcases h.view with hsame | ⟨hst, hexp, hp⟩
    · exact .inl hsame
    · refine .inr ⟨hst, ?_, hp⟩
      cases hl : j.leaseUntilMs with
      | none =>
        rw [hl] at hexp
        cases hexp
      | some l =>
        rw [hl, Option.any_some, decide_eq_true_eq] at hexp
        rw [Option.any_some, decide_eq_true_eq]
        omega

theorem RowCorresponds.same {time : ℤ} {j : BatchRow} {p : BatchRecord}
    (h : RowCorresponds time j p) (hj : j.state ≠ .claimed ∨ p.state ≠ .available) :
    SameView j p := by
  rcases h.view with hsame | ⟨hst, -, hpst, -, -⟩
  · exact hsame
  · rcases hj with hj | hp
    · exact (hj hst).elim
    · exact (hp hpst).elim

/-- A change of one batch's row, when the row allows it. -/
def changeOne (code : String) (allowed : BatchRecord → Bool) (f : BatchRecord → BatchRecord)
    (p : BatchRecord) : BatchRecord :=
  if p.batchCode = code && allowed p then f p else p

/-- When an update selects exactly the rows that the local coordinator changes, and makes the
same of them, the rows stay in correspondence. -/
theorem rowCorresponds_change {time now : ℤ} (ht : time ≤ now) {u : Update}
    {allowed : BatchRecord → Bool} {f : BatchRecord → BatchRecord} {j : BatchRow}
    {p : BatchRecord} (h : RowCorresponds time j p)
    (hsel : u.selects j = (p.batchCode = u.batchCode && allowed p))
    (hset : u.selects j = true → RowCorresponds now (u.sets j) (f p)) :
    RowCorresponds now (u.apply j) (changeOne u.batchCode allowed f p) := by
  unfold changeOne
  rw [← hsel]
  cases hs : u.selects j with
  | true =>
    rw [Update.apply_of_selects hs, if_pos rfl]
    exact hset hs
  | false =>
    rw [Update.apply_of_not_selects hs, if_neg Bool.false_ne_true]
    exact h.later ht

section
variable {time now : ℤ} (ht : time ≤ now) {j : BatchRow} {p : BatchRecord}
    (h : RowCorresponds time j p) (nodeId code : String)
include ht h

/-- Who holds a lease that has not expired is the same for both. -/
theorem selects_holdsLease :
    (decide (j.batchCode = code ∧ j.state = .claimed ∧ j.ownerNode = some nodeId ∧
      j.leaseUntilMs.any (now ≤ ·) = true)) =
      (p.batchCode = code && Factory.holdsLease nodeId now p) := by
  rw [Bool.eq_iff_iff, decide_eq_true_eq, Bool.and_eq_true, decide_eq_true_eq, ← h.code]
  unfold Factory.holdsLease
  rw [decide_eq_true_eq]
  rcases h.view with ⟨hst, hown, hl⟩ | ⟨hst, hexp, hpst, -, -⟩
  · rw [hst, hown, hl]
    constructor
    · rintro ⟨hc, hcl, ho, hlease⟩
      refine ⟨hc, hcl, ho, ?_⟩
      cases hjl : j.leaseUntilMs with
      | none =>
        rw [hjl] at hlease
        cases hlease
      | some l =>
        rw [hjl] at hlease
        simpa using hlease
    · rintro ⟨hc, hcl, ho, hlease⟩
      refine ⟨hc, hcl, ho, ?_⟩
      obtain ⟨l, hjl⟩ := Option.isSome_iff_exists.mp (h.lease hcl)
      rw [hjl] at hlease ⊢
      simpa using hlease
  · constructor
    · rintro ⟨-, -, -, hlease⟩
      obtain ⟨l, hjl⟩ := Option.isSome_iff_exists.mp (h.lease hst)
      rw [hjl, Option.any_some, decide_eq_true_eq] at hexp hlease
      omega
    · rintro ⟨-, hcl, -, -⟩
      rw [hpst] at hcl
      cases hcl

omit ht in
theorem selects_state {state : BatchState} (hclaimed : state ≠ .claimed)
    (havailable : state ≠ .available) :
    (decide (j.batchCode = code ∧ j.state = state ∧ j.ownerNode = some nodeId)) =
      (p.batchCode = code && decide (p.state = state ∧ p.ownerNode = some nodeId)) := by
  rw [Bool.eq_iff_iff, decide_eq_true_eq, Bool.and_eq_true, decide_eq_true_eq, decide_eq_true_eq,
    ← h.code]
  constructor
  · rintro ⟨hc, hst, hown⟩
    obtain ⟨hst', hown', -⟩ := h.same (.inl (hst ▸ hclaimed))
    exact ⟨hc, hst'.trans hst, hown'.trans hown⟩
  · rintro ⟨hc, hst, hown⟩
    obtain ⟨hst', hown', -⟩ := h.same (.inr (hst ▸ havailable))
    exact ⟨hc, hst'.symm.trans hst, hown'.symm.trans hown⟩

theorem corresponds_heartbeat (leaseUntil : ℤ) :
    let u := Update.heartbeat leaseUntil now code nodeId
    RowCorresponds now (u.apply j) (changeOne code (Factory.holdsLease nodeId now)
      (fun b => { b with leaseUntilMs := some leaseUntil, updatedAtMs := now }) p) := by
  intro u
  have hsel := selects_holdsLease ht h nodeId code
  refine rowCorresponds_change ht h hsel fun hs => ?_
  have hst : j.state = .claimed := (of_decide_eq_true hs).2.1
  have hp : p.state = .claimed := by
    have hs' := hsel.symm.trans hs
    rw [Bool.and_eq_true] at hs'
    exact (of_decide_eq_true hs'.2).1
  obtain ⟨hst', hown, -⟩ := h.same (.inr (by rw [hp]; decide))
  exact ⟨h.code, fun _ => rfl, .inl ⟨hst', hown, rfl⟩⟩

theorem corresponds_pauseRequest :
    let u := Update.pauseRequest now code nodeId
    RowCorresponds now (u.apply j) (changeOne code (Factory.holdsLease nodeId now)
      (fun b => { b with state := .pauseRequested, updatedAtMs := now }) p) := by
  intro u
  have hsel := selects_holdsLease ht h nodeId code
  refine rowCorresponds_change ht h hsel fun hs => ?_
  have hp : p.state = .claimed := by
    have hs' := hsel.symm.trans hs
    rw [Bool.and_eq_true] at hs'
    exact (of_decide_eq_true hs'.2).1
  obtain ⟨-, hown, hl⟩ := h.same (.inr (by rw [hp]; decide))
  exact ⟨h.code, (fun hst => nomatch hst), .inl ⟨rfl, hown, hl⟩⟩

theorem corresponds_paused :
    let u := Update.paused now code nodeId
    RowCorresponds now (u.apply j)
      (changeOne code (fun row => row.state = .pauseRequested ∧ row.ownerNode = some nodeId)
        (fun b => { b with state := .paused, leaseUntilMs := none, updatedAtMs := now }) p) := by
  intro u
  have hsel := selects_state h nodeId code (by decide : BatchState.pauseRequested ≠ .claimed)
    (by decide)
  refine rowCorresponds_change ht h hsel fun hs => ?_
  have hst : j.state = .pauseRequested := (of_decide_eq_true hs).2.1
  obtain ⟨-, hown, -⟩ := h.same (.inl (by rw [hst]; decide))
  exact ⟨h.code, (fun hst => nomatch hst), .inl ⟨rfl, hown, rfl⟩⟩

theorem corresponds_resume (leaseUntil : ℤ) :
    let u := Update.resume leaseUntil now code nodeId
    RowCorresponds now (u.apply j)
      (changeOne code (fun row => row.state = .paused ∧ row.ownerNode = some nodeId)
        (fun b => { b with state := .claimed, leaseUntilMs := some leaseUntil,
                           updatedAtMs := now }) p) := by
  intro u
  have hsel := selects_state h nodeId code (by decide : BatchState.paused ≠ .claimed) (by decide)
  refine rowCorresponds_change ht h hsel fun hs => ?_
  have hst : j.state = .paused := (of_decide_eq_true hs).2.1
  obtain ⟨-, hown, -⟩ := h.same (.inl (by rw [hst]; decide))
  exact ⟨h.code, fun _ => rfl, .inl ⟨rfl, hown, rfl⟩⟩

omit ht in
/-- A release is judged alike, unless the lease was cleared. -/
theorem selects_release :
    (Update.release now code nodeId).selects j = (p.batchCode = code && Factory.releasable nodeId p) ∨
      (SweptView time j p ∧ j.ownerNode = some nodeId ∧ Factory.releasable nodeId p = false) := by
  rcases h.view with ⟨hst, hown, -⟩ | hswept
  · left
    unfold Update.selects Factory.releasable
    rw [hst, hown, h.code]
    rw [Bool.eq_iff_iff, decide_eq_true_eq, Bool.and_eq_true, decide_eq_true_eq, decide_eq_true_eq]
    tauto
  · have hp : Factory.releasable nodeId p = false := by
      unfold Factory.releasable
      rw [hswept.2.2.2.1]
      simp
    by_cases hown : j.ownerNode = some nodeId
    · exact .inr ⟨hswept, hown, hp⟩
    · left
      rw [hp, Bool.and_false]
      simp [Update.selects, hown]

theorem corresponds_release :
    let u := Update.release now code nodeId
    RowCorresponds now (u.apply j) (changeOne code (Factory.releasable nodeId)
      (fun b => { b with state := .available, ownerNode := none, leaseUntilMs := none,
                         updatedAtMs := now }) p) := by
  intro u
  rcases selects_release h nodeId code with hsel | ⟨hswept, -, hp⟩
  · refine rowCorresponds_change ht h hsel fun _ => ?_
    exact ⟨h.code, (fun hst => nomatch hst), .inl ⟨rfl, rfl, rfl⟩⟩
  · have hkeep : changeOne code (Factory.releasable nodeId) (fun b => { b with
        state := .available, ownerNode := none, leaseUntilMs := none, updatedAtMs := now }) p =
        p := by
      unfold changeOne
      rw [hp, Bool.and_false, if_neg Bool.false_ne_true]
    rw [hkeep]
    cases hs : u.selects j with
    | false =>
      rw [Update.apply_of_not_selects hs]
      exact h.later ht
    | true =>
      rw [Update.apply_of_selects hs]
      exact ⟨h.code, (fun hst => nomatch hst), .inl hswept.2.2⟩

theorem corresponds_ingested (manifestSha : String)
    (hsel : (Update.ingested now code manifestSha).selects j =
      (p.batchCode = code && Factory.ingestable manifestSha p)) :
    let u := Update.ingested now code manifestSha
    RowCorresponds now (u.apply j)
      (changeOne code (Factory.ingestable manifestSha) (Factory.ingested manifestSha now) p) := by
  intro u
  refine rowCorresponds_change ht h hsel fun _ => ?_
  exact ⟨h.code, (fun hst => nomatch hst), .inl ⟨rfl, rfl, rfl⟩⟩

/-- The row after the expired leases have been cleared. -/
def sweptRow (now : ℤ) (p : BatchRecord) : BatchRecord :=
  if p.state = .claimed ∧ p.leaseUntilMs.any (· < now) then
    { p with state := .available, ownerNode := none, leaseUntilMs := none, updatedAtMs := now }
  else p

theorem corresponds_sweep : RowCorresponds now j (sweptRow now p) := by
  unfold sweptRow
  split
  · rename_i hexp
    have hlease : j.leaseUntilMs = p.leaseUntilMs ∧ j.state = .claimed := by
      obtain ⟨hst, -, hl⟩ := h.same (.inr (by rw [hexp.1]; decide))
      exact ⟨hl.symm, hst.symm.trans hexp.1⟩
    refine ⟨h.code, h.lease, .inr ⟨hlease.2, ?_, rfl, rfl, rfl⟩⟩
    rw [hlease.1]
    exact hexp.2
  · exact h.later ht

omit ht h in
theorem sweptRow_lease (hst : (sweptRow now p).state = .claimed) {l : ℤ}
    (hl : (sweptRow now p).leaseUntilMs = some l) : now ≤ l := by
  unfold sweptRow at hst hl
  split at hst
  · cases hst
  · rename_i hexp
    rw [if_neg hexp] at hl
    rw [hl, Option.any_some, decide_eq_true_eq] at hexp
    by_contra hlt
    exact hexp ⟨hst, not_le.mp hlt⟩

theorem selects_claim (leaseUntil : ℤ) :
    (Update.claim nodeId leaseUntil now code).selects j =
      ((sweptRow now p).batchCode = code && Factory.claimable nodeId now (sweptRow now p)) := by
  have hrow := corresponds_sweep ht h
  have hfresh : ∀ l, (sweptRow now p).state = .claimed →
      (sweptRow now p).leaseUntilMs = some l → now ≤ l :=
    fun l hst hl => sweptRow_lease hst hl
  rw [Bool.eq_iff_iff, Update.selects_claim_iff, Bool.and_eq_true, decide_eq_true_eq,
    Factory.claimable_iff, hrow.code]
  refine and_congr_right fun _ => ?_
  rcases hrow.view with ⟨hst, hown, hl⟩ | ⟨hst, hexp, hqst, -, -⟩
  · rw [hst, hown, hl]
    refine or_congr_right (and_congr_right fun hcl => or_congr_right ?_)
    obtain ⟨l, hjl⟩ := Option.isSome_iff_exists.mp (h.lease hcl)
    have hnow := hfresh l (hst.trans hcl) (hl.trans hjl)
    rw [hjl, Option.any_some, Option.getD_some, decide_eq_true_eq]
  · rw [hqst]
    simp [hst, hexp]

theorem corresponds_claim (leaseUntil : ℤ) :
    let u := Update.claim nodeId leaseUntil now code
    RowCorresponds now (u.apply j) (changeOne code (Factory.claimable nodeId now)
      (Factory.claimed nodeId leaseUntil now) (sweptRow now p)) := by
  intro u
  have hrow := corresponds_sweep ht h
  refine rowCorresponds_change le_rfl hrow (selects_claim ht h nodeId code leaseUntil) fun _ => ?_
  exact ⟨hrow.code, fun _ => rfl, .inl ⟨rfl, rfl, rfl⟩⟩

theorem candidate_iff :
    (j.state = .available ∨ j.state = .claimed ∧ j.leaseUntilMs.any (· < now) = true) ↔
      (sweptRow now p).state = .available := by
  have hrow := corresponds_sweep ht h
  have hfresh : ∀ l, (sweptRow now p).state = .claimed →
      (sweptRow now p).leaseUntilMs = some l → now ≤ l :=
    fun l hst hl => sweptRow_lease hst hl
  rcases hrow.view with ⟨hst, -, hl⟩ | ⟨hst, hexp, hqst, -, -⟩
  · rw [hst]
    constructor
    · rintro (hav | ⟨hcl, hexp⟩)
      · exact hav
      · obtain ⟨l, hjl⟩ := Option.isSome_iff_exists.mp (h.lease hcl)
        have hnow := hfresh l (hst.trans hcl) (hl.trans hjl)
        rw [hjl, Option.any_some, decide_eq_true_eq] at hexp
        omega
    · exact .inl
  · simp [hst, hexp, hqst]

end

end TradingLab
