import TradingLab.Coordinator.ClaimGuard

/-!
# Ownership of batches

A batch passes from one node to another only after its owner released it or the
owner's lease expired, an ingested batch stays as it is, and what is ingested is
what its owner declared. This holds for every interleaving of the handlers'
statements, with any number of requests in flight.
-/

namespace TradingLab.Coordinator

open Interleaving List

abbrev Moment : Type := Interleaving.Moment Store Op
abbrev World : Type := Interleaving.World Store Op Ans Outcome

/-- The statement was executed and changed the row of its batch. -/
def Accepts (u : Update) (m : Moment) : Prop :=
  m.op = .update u ∧ ∃ r, m.before.batch? u.batchCode = some r ∧ u.selects r = true

def Releases (batchCode nodeId : String) (m : Moment) : Prop :=
  ∃ now, Accepts (.release now batchCode nodeId) m

/-- Another node claims the batch, when the owner's lease has expired. -/
def TakesExpired (batchCode nodeId : String) (m : Moment) : Prop :=
  ∃ claimer leaseUntil now r expiry, Accepts (.claim claimer leaseUntil now batchCode) m ∧
    m.before.batch? batchCode = some r ∧ r.state = .claimed ∧ r.ownerNode = some nodeId ∧
    r.leaseUntilMs = some expiry ∧ expiry < m.before.clock

/-- The owner declares a manifest with its number of results. -/
def Declares (batchCode nodeId manifestSha : String) (resultCount : ℤ) (m : Moment) : Prop :=
  ∃ now transferMode, Accepts (.ready now manifestSha resultCount transferMode batchCode nodeId) m

def Ingests (batchCode manifestSha : String) (m : Moment) : Prop :=
  ∃ now, Accepts (.ingested now batchCode manifestSha) m

/-- The last declaration for a batch. -/
def LastDeclares (batchCode nodeId manifestSha : String) (resultCount : ℤ) (τ : List Moment) :
    Prop :=
  ∃ τ₁ m τ₂, τ = τ₁ ++ m :: τ₂ ∧ Declares batchCode nodeId manifestSha resultCount m ∧
    ∀ m' ∈ τ₂, ∀ A x n, ¬ Declares batchCode A x n m'

/-- The database is seeded, and no request is in flight. -/
structure Seeded (w : World) : Prop where
  idle : w.running = []
  rows : ∀ b r, w.store.batch? b = some r → r.state = .available ∧ r.ownerNode = none

def Store.owner? (s : Store) (batchCode : String) : Option String :=
  (s.batch? batchCode).bind BatchRow.ownerNode

variable {s : Store} {b A : String} {r : BatchRow} {u : Update} {τ υ : List Moment} {o : Op}
  {env : Env} {w v : World}

/-- A batch in one of these states is not for others to claim. -/
def BatchState.Held (state : BatchState) : Prop :=
  state = .pauseRequested ∨ state = .paused ∨ state = .awaitingIngest ∨ state = .ingested

theorem batchCode_of_batch? (h : s.batch? b = some r) :
    r.batchCode = b := Table.key_of_find? h

theorem claim_held {nodeId batchCode : String} {leaseUntil now : ℤ}
    (h : r.state.Held) : (Update.claim nodeId leaseUntil now batchCode).apply r = r := by
  apply Update.apply_of_not_selects
  rcases h with h | h | h | h <;> simp [Update.selects, h]

theorem selects_ingested (h : r.state = .ingested) :
    u.selects r = false := by
  cases u <;> simp [Update.selects, h]

/-- How a batch can leave its owner. -/
theorem owner_apply (hun : r.state = .available → r.ownerNode = none) (h : r.ownerNode = some A)
    (hs : u.selects r = true) :
    (u.sets r).ownerNode = some A ∨
      (∃ now, u = .release now r.batchCode A) ∨
      (∃ B leaseUntil now expiry, u = .claim B leaseUntil now r.batchCode ∧
        r.state = .claimed ∧ r.leaseUntilMs = some expiry ∧ expiry < now) ∨
      ((u.sets r).state = .ingested ∧ (u.sets r).ownerNode = none) := by
  have hcode := Update.batchCode_of_selects hs
  cases u with
  | claim B leaseUntil now b =>
    rcases (of_decide_eq_true hs).2.2.2.2.2.2 with hav | hown | hexp
    · rw [hun hav] at h
      cases h
    · exact .inl (hown.2.symm.trans h)
    · cases hl : r.leaseUntilMs with
      | none =>
        rw [hl] at hexp
        cases hexp.2
      | some expiry =>
        rw [hl] at hexp
        exact .inr (.inr (.inl
          ⟨B, leaseUntil, now, expiry, by rw [hcode]; rfl, hexp.1, rfl, of_decide_eq_true hexp.2⟩))
  | release now b nodeId =>
    have hown : some nodeId = some A := (of_decide_eq_true hs).2.2.symm.trans h
    cases hown
    exact .inr (.inl ⟨now, by rw [hcode]; rfl⟩)
  | ingested now b manifestSha => exact .inr (.inr (.inr ⟨rfl, rfl⟩))
  | _ => exact .inl h

theorem unowned_apply (h : r.state = .available → r.ownerNode = none) :
    (u.apply r).state = .available → (u.apply r).ownerNode = none := by
  cases hs : u.selects r with
  | false =>
    rw [Update.apply_of_not_selects hs]
    exact h
  | true =>
    rw [Update.apply_of_selects hs]
    cases u with
    | release now b nodeId => exact fun _ => rfl
    | ingested now b manifestSha => exact fun _ => rfl
    | heartbeat leaseUntil now b nodeId => exact h
    | _ => exact fun hst => nomatch hst

/-- What is known of a batch after the operations executed so far. -/
structure RowHistory (τ : List Moment) (r : BatchRow) : Prop where
  unowned : r.state = .available → r.ownerNode = none
  declared : r.state = .awaitingIngest → ∃ A x, r.ownerNode = some A ∧
    r.resultManifestSha256 = some x ∧ r.resultCount = some r.candidateCount ∧
    LastDeclares r.batchCode A x r.candidateCount τ
  ingested : r.state = .ingested → ∃ A x,
    r.resultManifestSha256 = some x ∧ r.resultCount = some r.candidateCount ∧
    LastDeclares r.batchCode A x r.candidateCount τ ∧
    ∃ m ∈ τ, Ingests r.batchCode x m ∧ m.before.owner? r.batchCode = some A

theorem LastDeclares.append {x : String} {n : ℤ} {m : Moment}
    (h : LastDeclares b A x n τ) (hm : ∀ A x n, ¬ Declares b A x n m) :
    LastDeclares b A x n (τ ++ [m]) := by
  obtain ⟨τ₁, m₀, τ₂, rfl, hd, hlast⟩ := h
  refine ⟨τ₁, m₀, τ₂ ++ [m], by simp, hd, fun m' hm' => ?_⟩
  rcases mem_append.mp hm' with hm' | hm'
  · exact hlast m' hm'
  · rw [mem_singleton.mp hm']
    exact hm

theorem RowHistory.append {m : Moment} (h : RowHistory τ r)
    (hm : ∀ A x n, ¬ Declares r.batchCode A x n m) : RowHistory (τ ++ [m]) r where
  unowned := h.unowned
  declared := by
    intro hst
    obtain ⟨A, x, hown, hx, hn, hlast⟩ := h.declared hst
    exact ⟨A, x, hown, hx, hn, hlast.append hm⟩
  ingested := by
    intro hst
    obtain ⟨A, x, hx, hn, hlast, m', hm', hin⟩ := h.ingested hst
    exact ⟨A, x, hx, hn, hlast.append hm, m', mem_append_left _ hm', hin⟩

theorem selects_of_declares {x : String} {n : ℤ}
    (hr : s.batch? b = some r) (h : Declares b A x n ⟨s, .update u⟩) :
    u.selects r = true ∧ ∃ now transferMode, u = .ready now x n transferMode b A := by
  obtain ⟨now, transferMode, hop, r', hr', hsel⟩ := h
  cases hop
  cases hr.symm.trans hr'
  exact ⟨hsel, now, transferMode, rfl⟩

/-- What an update makes of a row, and of what is known of it. -/
theorem RowHistory.update (h : RowHistory τ r) (hr : s.batch? r.batchCode = some r) :
    RowHistory (τ ++ [⟨s, .update u⟩]) (u.apply r) := by
  cases hs : u.selects r with
  | false =>
    rw [Update.apply_of_not_selects hs]
    apply h.append
    intro A x n hd
    rw [(selects_of_declares hr hd).1] at hs
    cases hs
  | true =>
    have hun := unowned_apply (u := u) h.unowned
    have hcode := Update.batchCode_of_selects hs
    rw [Update.apply_of_selects hs] at hun ⊢
    have haccept : Accepts u ⟨s, .update u⟩ := ⟨rfl, r, by rw [← hcode]; exact hr, hs⟩
    cases u with
    | ready now x n transferMode b A =>
      obtain ⟨hb, -, hown, hcount⟩ := of_decide_eq_true hs
      refine ⟨hun, fun _ => ⟨A, x, hown, rfl, congrArg some hcount.symm, ?_⟩, fun hst => nomatch hst⟩
      refine ⟨τ, _, [], rfl, ⟨now, transferMode, ?_⟩, fun m hm => nomatch hm⟩
      have hb' : r.batchCode = b := hb
      have hn' : r.candidateCount = n := hcount
      dsimp only [Update.sets]
      rw [hb', hn']
      exact haccept
    | ingested now b x =>
      obtain ⟨-, hst, hx⟩ := of_decide_eq_true hs
      obtain ⟨A, x', hown, hx', hn, hlast⟩ := h.declared hst
      cases hx.symm.trans hx'
      let m : Moment := ⟨s, .update (.ingested now b x)⟩
      refine ⟨hun, (fun hst => nomatch hst), fun _ => ⟨A, x, hx, hn, ?_, m, ?_, ⟨now, ?_⟩, ?_⟩⟩
      · apply hlast.append
        intro A' x' n' hd
        obtain ⟨_, _, _, hne⟩ := selects_of_declares hr hd
        cases hne
      · exact mem_append_right _ mem_cons_self
      · have hb' : r.batchCode = b := hcode
        dsimp only [Update.sets]
        rw [hb']
        exact haccept
      · exact (congrArg (Option.bind · BatchRow.ownerNode) hr).trans hown
    | heartbeat leaseUntil now b A =>
      have hst : r.state = .claimed := (of_decide_eq_true hs).2.1
      refine ⟨hun, fun hst' => ?_, fun hst' => ?_⟩
      · cases hst.symm.trans hst'
      · cases hst.symm.trans hst'
    | _ => exact ⟨hun, (fun hst => nomatch hst), (fun hst => nomatch hst)⟩

theorem batch?_update (h : (machine.after s (.update u)).batch? b = some r) :
    ∃ r₀, s.batch? b = some r₀ ∧ r = u.apply r₀ := by
  rw [batch?_after_update, Option.map_eq_some_iff] at h
  obtain ⟨r₀, h₀, rfl⟩ := h
  exact ⟨r₀, h₀, rfl⟩

def History (τ : List Moment) (s : Store) : Prop := ∀ b r, s.batch? b = some r → RowHistory τ r

theorem history_exec (h : History τ s) :
    History (τ ++ [⟨s, o⟩]) (machine.after s o) := by
  intro b r hr
  by_cases ho : ∃ u, o = .update u
  · obtain ⟨u, rfl⟩ := ho
    obtain ⟨r₀, h₀, rfl⟩ := batch?_update hr
    cases batchCode_of_batch? h₀
    exact (h _ _ h₀).update h₀
  · have hsame : s.batch? b = some r := by
      rw [← hr, Store.batch?, Store.batch?, batches_after fun u hu => ho ⟨u, hu⟩]
    apply (h b r hsame).append
    intro A x n hd
    obtain ⟨now, transferMode, hop, -⟩ := hd
    exact ho ⟨_, hop⟩

theorem history_run (hw : Seeded w) (hrun : machine.Run (Admits env) w τ v) :
    machine.Guarded Later ClaimGuard v ∧ History τ v.store := by
  apply Machine.Run.induct rely_later (fun p s => meets_fetch env p s) _ _ hrun
  · intro p hp
    rw [hw.idle] at hp
    cases hp
  · intro b r hr
    obtain ⟨hst, hown⟩ := hw.rows b r hr
    refine ⟨fun _ => hown, fun h => ?_, fun h => ?_⟩
    · cases hst.symm.trans h
    · cases hst.symm.trans h
  · intro τ s t henv h
    obtain ⟨clock, -, rfl⟩ := henv
    exact h
  · intro τ s o _ h
    exact history_exec h

theorem ingested_exec (hst : r.state = .ingested)
    (h : s.batch? b = some r) : (machine.after s o).batch? b = some r := by
  by_cases ho : ∃ u, o = .update u
  · obtain ⟨u, rfl⟩ := ho
    rw [batch?_after_update, h, Option.map_some, Update.apply_of_not_selects (selects_ingested hst)]
  · rw [Store.batch?, batches_after fun u hu => ho ⟨u, hu⟩]
    exact h

/-- Since a node owned the batch, it released it or lost an expired lease, or it still owns
it, or the batch is ingested. -/
def Kept (b A : String) (υ : List Moment) (s : Store) : Prop :=
  (∃ m ∈ υ, Releases b A m ∨ TakesExpired b A m) ∨
    ∃ r, s.batch? b = some r ∧
      (r.ownerNode = some A ∨ r.state = .ingested ∧ r.ownerNode = none)

theorem kept_exec (hG : ClaimGuard s o)
    (hτ : History τ s) (h : Kept b A υ s) : Kept b A (υ ++ [⟨s, o⟩]) (machine.after s o) := by
  rcases h with ⟨m, hm, hpass⟩ | ⟨r, hr, hkept⟩
  · exact .inl ⟨m, mem_append_left _ hm, hpass⟩
  · by_cases ho : ∃ u, o = .update u
    · obtain ⟨u, rfl⟩ := ho
      cases hs : u.selects r with
      | false =>
        refine .inr ⟨r, ?_, hkept⟩
        rw [batch?_after_update, hr, Option.map_some, Update.apply_of_not_selects hs]
      | true =>
        have hlast : (⟨s, .update u⟩ : Moment) ∈ υ ++ [⟨s, .update u⟩] :=
          mem_append_right _ mem_cons_self
        have hafter : (machine.after s (.update u)).batch? b = some (u.sets r) := by
          rw [batch?_after_update, hr, Option.map_some, Update.apply_of_selects hs]
        have hb : r.batchCode = b := batchCode_of_batch? hr
        have haccept : Accepts u ⟨s, .update u⟩ :=
          ⟨rfl, r, by rw [← Update.batchCode_of_selects hs, hb]; exact hr, hs⟩
        rcases hkept with hown | ⟨hst, -⟩
        · rcases owner_apply (hτ b r hr).unowned hown hs with
            hsame | ⟨now, rfl⟩ | ⟨B, leaseUntil, now, expiry, rfl, hst, hl, hlt⟩ | hin
          · exact .inr ⟨_, hafter, .inl hsame⟩
          · rw [hb] at haccept
            exact .inl ⟨_, hlast, .inl ⟨now, by rwa [hb]⟩⟩
          · refine .inl ⟨_, hlast, .inr ⟨B, leaseUntil, now, r, expiry, ?_, hr, hst, hown, hl, ?_⟩⟩
            · rwa [hb] at haccept ⊢
            · exact lt_of_lt_of_le hlt hG
          · exact .inr ⟨_, hafter, .inr hin⟩
        · rw [selects_ingested hst] at hs
          cases hs
    · refine .inr ⟨r, ?_, hkept⟩
      rw [Store.batch?, batches_after fun u hu => ho ⟨u, hu⟩]
      exact hr

theorem kept_run {u : World} (hu : Seeded u)
    (hv : machine.Run (Admits env) u τ v) (hw : machine.Run (Admits env) v υ w)
    (hown : v.store.owner? b = some A) : Kept b A υ w.store := by
  obtain ⟨hguard, hhist⟩ := history_run hu hv
  have hrun := Machine.Run.induct rely_later (fun p s => meets_fetch env p s)
    (H := fun υ s => History (τ ++ υ) s ∧ Kept b A υ s) ?_ ?_ hw hguard ?_
  · exact hrun.2.2
  · intro υ s t henv h
    obtain ⟨clock, -, rfl⟩ := henv
    exact h
  · intro υ s o hG h
    rw [← append_assoc]
    exact ⟨history_exec h.1, kept_exec hG h.1 h.2⟩
  · rw [append_nil]
    refine ⟨hhist, .inr ?_⟩
    obtain ⟨r, hr, hA⟩ := Option.bind_eq_some_iff.mp hown
    exact ⟨r, hr, .inl hA⟩

theorem ingested_run
    (hguard : machine.Guarded Later ClaimGuard v) (hw : machine.Run (Admits env) v υ w)
    (hst : r.state = .ingested) (hr : v.store.batch? b = some r) :
    w.store.batch? b = some r := by
  apply (Machine.Run.induct rely_later (fun p s => meets_fetch env p s)
    (H := fun _ s => s.batch? b = some r) _ _ hw hguard hr).2
  · intro _ s t henv h
    obtain ⟨clock, -, rfl⟩ := henv
    exact h
  · intro _ s o _ h
    exact ingested_exec hst h

/-- **Ownership safety.** A run leads from a seeded database to `v` and on to `w`. -/
theorem ownership_safety (env : Env) {u v w : World} {τ υ : List Moment} (hu : Seeded u)
    (hv : machine.Run (Admits env) u τ v) (hw : machine.Run (Admits env) v υ w) (b : String) :
    -- the batch passes from A to B only after A released it or A's lease expired
    (∀ A B, v.store.owner? b = some A → w.store.owner? b = some B → A ≠ B →
      ∃ m ∈ υ, Releases b A m ∨ TakesExpired b A m) ∧
    -- no claim changes a batch that is held
    (∀ m ∈ υ, ∀ nodeId leaseUntil now, m.op = .update (.claim nodeId leaseUntil now b) →
      ∀ r, m.before.batch? b = some r → r.state.Held → (machine.left m).batch? b = some r) ∧
    -- an ingested batch stays as it is
    (∀ r, v.store.batch? b = some r → r.state = .ingested → w.store.batch? b = some r) ∧
    -- what is ingested is what the owner declared last, with every result
    (∀ r, w.store.batch? b = some r → r.state = .ingested → ∃ A x,
      r.resultManifestSha256 = some x ∧ r.resultCount = some r.candidateCount ∧
      LastDeclares b A x r.candidateCount (τ ++ υ) ∧
      ∃ m ∈ τ ++ υ, Ingests b x m ∧ m.before.owner? b = some A) := by
  refine ⟨?_, ?_, ?_, ?_⟩
  · intro A B hA hB hne
    rcases kept_run hu hv hw hA with h | ⟨r, hr, hown⟩
    · exact h
    · have hr' : r.ownerNode = some B := by
        obtain ⟨r', hr', hB'⟩ := Option.bind_eq_some_iff.mp hB
        cases hr.symm.trans hr'
        exact hB'
      rcases hown with hA' | ⟨-, hnone⟩
      · cases hA'.symm.trans hr'
        exact (hne rfl).elim
      · cases hnone.symm.trans hr'
  · intro m _ nodeId leaseUntil now hop r hr hheld
    rw [Machine.left, hop, batch?_after_update, hr, Option.map_some, claim_held hheld]
  · intro r hr hst
    exact ingested_run (history_run hu hv).1 hw hst hr
  · intro r hr hst
    have h := (history_run hu (hv.trans hw)).2 b r hr
    have hb := batchCode_of_batch? hr
    rw [← hb]
    exact h.ingested hst

/-- A claim of one batch, served at some time without interference. -/
def claimAt (clock : ℤ) (nodeId : String) (s : Store) : List Moment × Store :=
  let request := handleClaim ⟨"Bearer t", some ⟨nodeId, some "B001", .falsy, none, none, none⟩⟩
  let s' := { s with clock := clock }
  (machine.moments request s', (machine.result request s').2)

/-- Two nodes and one batch. -/
def smallStore : Store where
  clock := 0
  planSha256 := none
  nodes := ⟨[⟨"NODE-A1", Sha256.hexDigest ['t'], true, none⟩,
    ⟨"NODE-B1", Sha256.hexDigest ['t'], true, none⟩], by decide⟩
  batches := ⟨[⟨"B001", "", "", 1, .available, none, none, 0, none, none, none⟩], by decide⟩
  events := []
  objects := Table.empty

theorem seeded_smallStore : Seeded ⟨smallStore, []⟩ where
  idle := rfl
  rows := by
    intro b r hr
    have hmem : r ∈ smallStore.batches.rows := Table.mem_of_find? hr
    rw [smallStore, mem_singleton] at hmem
    rw [hmem]
    exact ⟨rfl, rfl⟩

theorem run_claimAt (env : Env) {u : World}
    (h : machine.Run (Admits env) u τ ⟨s, []⟩) {clock : ℤ} (hc : s.clock ≤ clock)
    (nodeId : String) :
    machine.Run (Admits env) u (τ ++ (claimAt clock nodeId s).1) ⟨(claimAt clock nodeId s).2, []⟩ :=
  Machine.Run.serve (h.silent (.env ⟨clock, hc, rfl⟩)) ⟨.claim _, rfl⟩

/-- The lease of the first node runs out, and the second node takes the batch. -/
theorem ownership_safety_expired :
    ∃ m ∈ (claimAt 900001 "NODE-B1" (claimAt 0 "NODE-A1" smallStore).2).1,
      Releases "B001" "NODE-A1" m ∨ TakesExpired "B001" "NODE-A1" m := by
  have hsafe : ∀ (v w : Store) (τ υ : List Moment),
      machine.Run (Admits ⟨none, false⟩) ⟨smallStore, []⟩ τ ⟨v, []⟩ →
      machine.Run (Admits ⟨none, false⟩) ⟨v, []⟩ υ ⟨w, []⟩ →
      v.owner? "B001" = some "NODE-A1" → w.owner? "B001" = some "NODE-B1" →
      ∃ m ∈ υ, Releases "B001" "NODE-A1" m ∨ TakesExpired "B001" "NODE-A1" m :=
    fun v w τ υ hv hw hA hB =>
      (ownership_safety ⟨none, false⟩ seeded_smallStore hv hw "B001").1 _ _ hA hB (by decide)
  have hstart : smallStore.clock ≤ 0 := le_rfl
  have hclock : (claimAt 0 "NODE-A1" smallStore).2.clock ≤ 900001 := by decide +kernel
  apply hsafe
  · exact run_claimAt _ .refl hstart "NODE-A1"
  · exact run_claimAt _ .refl hclock "NODE-B1"
  · decide +kernel
  · decide +kernel

end TradingLab.Coordinator
