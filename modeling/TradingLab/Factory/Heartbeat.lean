import TradingLab.Factory.Transitions

/-!
# Heartbeats of a running child

A worker runs one micro-shard in a child process. It renews the lease of its
batch before the child starts. While the child runs it sleeps five seconds at a
time, and only after a sleep it looks whether the next heartbeat is due. A
heartbeat that is refused ends the child.

Sleeps take exactly the time that was asked for and calls take none, so the clock
counts whole seconds from the first heartbeat.
-/

namespace TradingLab.Factory

open List Method

/-- A child process: how long it would run, and how it ends. -/
structure Child where
  lifetime : ℚ
  returncode : ℤ
  stdout : String

inductive Process where
  | notStarted
  | started
  | terminated (time : ℤ)
deriving DecidableEq

/-- The world of one run: the clock, the heartbeats that were accepted (the latest first), the
process, and the state behind the control. -/
structure Watch (σ : Type) where
  now : ℤ
  beats : List ℤ
  process : Process
  control : σ

abbrev Watching (σ α : Type) : Type := Method (Watch σ) Failure α

/-- A heartbeat of the control for a batch code and a lease, at a time. -/
abbrev Control (σ : Type) : Type := String → ℤ → ℤ → Method σ Failure Unit

def Watch.start {σ : Type} (control : σ) : Watch σ := ⟨0, [], .notStarted, control⟩

section
variable {σ : Type} (control : Control σ) (child : Child) (batchCode : String)
    (leaseSeconds heartbeatSeconds : ℤ)

def sendHeartbeat : Watching σ Unit := do
  let now ← Method.read Watch.now
  Method.zoom Watch.control (fun c s => { s with control := c }) (fun e => e)
    (control batchCode leaseSeconds now)
  Method.modify fun s => { s with beats := now :: s.beats }

def popen : Watching σ Unit := Method.modify fun s => { s with process := .started }

/-- `poll` gives no return code yet. -/
def polledRunning : Watching σ Bool := Method.read fun s => s.now < child.lifetime

def sleep (seconds : ℤ) : Watching σ Unit := Method.modify fun s => { s with now := s.now + seconds }

/-- The process is terminated, or killed when it does not end. -/
def terminate : Watching σ Unit := Method.modify fun s => { s with process := .terminated s.now }

/-- The loop over at most this many polls. -/
def watchChild : ℕ → ℤ → Watching σ Unit
  | 0, _ => pure ()
  | polls + 1, nextHeartbeat => do
      if ← polledRunning child then
        sleep (min 5 heartbeatSeconds)
        let now ← Method.read Watch.now
        if nextHeartbeat ≤ now then
          (sendHeartbeat control batchCode leaseSeconds).onError terminate
          watchChild polls (now + heartbeatSeconds)
        else watchChild polls nextHeartbeat
      else pure ()

/-- Enough polls for a child: each is a second later than the one before, or more. -/
def enoughPolls : ℕ := ⌈child.lifetime⌉.toNat + 1

/-- The answer of a child that has ended. -/
def childResult : Except Failure JsonMembers := do
  raiseIf (child.returncode ≠ 0)
    (.mcf ("micro-shard child failed rc=" ++ toString child.returncode))
  match Json.loads child.stdout with
  | none => .error (.mcf "micro-shard child returned invalid JSON")
  | some (.object result) =>
      match result.lookup "status" with
      | some (.array _) | some (.object _) => .error .typeError
      | status => do
          raiseIf (status ≠ some (.str "MICROSHARD_COMPLETE") ∧
              status ≠ some (.str "MICROSHARD_PAUSED_SAFE"))
            (.mcf "micro-shard child returned unexpected status")
          return result
  | some _ => .error (.mcf "micro-shard child returned unexpected status")

def runChildWithHeartbeat : Watching σ JsonMembers := do
  Method.check (raiseIf (heartbeatSeconds < 15 ∨ leaseSeconds ≤ heartbeatSeconds)
    (.mcf "heartbeat interval must be >=15s and shorter than lease"))
  sendHeartbeat control batchCode leaseSeconds
  popen
  let now ← Method.read Watch.now
  watchChild control child batchCode leaseSeconds heartbeatSeconds (enoughPolls child)
    (now + heartbeatSeconds)
  Method.check (childResult child)

end

def span (heartbeatSeconds : ℤ) : ℤ := 5 * ((heartbeatSeconds + 4) / 5)

/-- Heartbeats from the start on, the latest first, one span after the other. -/
inductive Spaced (heartbeatSeconds : ℤ) : List ℤ → Prop where
  | first : Spaced heartbeatSeconds [0]
  | next {b : ℤ} {beats : List ℤ} (h : Spaced heartbeatSeconds (b :: beats)) :
      Spaced heartbeatSeconds ((b + span heartbeatSeconds) :: b :: beats)

/-- Before a poll of the loop: the next heartbeat is due within a span of the last. -/
structure Beating {σ : Type} (heartbeatSeconds last : ℤ) (s : Watch σ) : Prop where
  started : s.process = .started
  spaced : ∃ beats, s.beats = last :: beats ∧ Spaced heartbeatSeconds (last :: beats)
  polled : 5 ∣ s.now - last
  lower : last ≤ s.now
  upper : s.now < last + span heartbeatSeconds

/-- After the loop: the child has ended, by itself or by the worker. -/
structure Ended {σ : Type} (child : Child) (heartbeatSeconds last : ℤ) (s : Watch σ) : Prop where
  spaced : ∃ beats, s.beats = last :: beats ∧ Spaced heartbeatSeconds (last :: beats)
  upper : s.now ≤ last + span heartbeatSeconds
  ended : s.process = .terminated s.now ∨ s.process = .started ∧ child.lifetime ≤ s.now

section
variable {σ : Type} {control : Control σ} {child : Child} {batchCode : String}
    {leaseSeconds heartbeatSeconds : ℤ}

theorem call_sendHeartbeat (s : Watch σ) :
    (sendHeartbeat control batchCode leaseSeconds).call s =
      match (control batchCode leaseSeconds s.now).call s.control with
      | (.ok (), c) => (.ok (), { s with control := c, beats := s.now :: s.beats })
      | (.error e, c) => (.error e, { s with control := c }) := by
  unfold sendHeartbeat
  rw [call_read_bind, call_bind, call_zoom]
  rcases (control batchCode leaseSeconds s.now).call s.control with ⟨_ | _, c⟩ <;> rfl

variable {last now : ℤ} {polls : ℕ} {s : Watch σ}

theorem spaced_upper (hpolled : 5 ∣ now - last)
    (hupper : now < last + span heartbeatSeconds) : now + 5 ≤ last + span heartbeatSeconds := by
  unfold span at hupper ⊢
  omega

theorem eq_span_of_due (hpolled : 5 ∣ now - last)
    (hupper : now ≤ last + span heartbeatSeconds) (hdue : last + heartbeatSeconds ≤ now) :
    now = last + span heartbeatSeconds := by
  unfold span at hupper ⊢
  omega

theorem le_span : heartbeatSeconds ≤ span heartbeatSeconds := by
  unfold span
  omega

theorem watchChild_succ {next : ℤ} (hheartbeat : 15 ≤ heartbeatSeconds)
    (hrun : (s.now : ℚ) < child.lifetime) :
    (watchChild control child batchCode leaseSeconds heartbeatSeconds (polls + 1) next).call s =
      (if next ≤ s.now + 5 then do
          (sendHeartbeat control batchCode leaseSeconds).onError terminate
          watchChild control child batchCode leaseSeconds heartbeatSeconds polls
            (s.now + 5 + heartbeatSeconds)
        else watchChild control child batchCode leaseSeconds heartbeatSeconds polls next :
          Watching σ Unit).call { s with now := s.now + 5 } := by
  have hmin : min 5 heartbeatSeconds = 5 := min_eq_left (by omega)
  rw [watchChild, polledRunning, call_read_bind, decide_eq_true hrun, if_pos rfl, hmin]
  rfl

/-- However the control answers, the loop ends with the child. -/
theorem watchChild_ends (hheartbeat : 15 ≤ heartbeatSeconds)
    (hpolls : ⌈child.lifetime⌉ < s.now + polls) (h : Beating heartbeatSeconds last s) :
    ∃ last', Ended child heartbeatSeconds last'
      ((watchChild control child batchCode leaseSeconds heartbeatSeconds polls
        (last + heartbeatSeconds)).after s) := by
  induction polls generalizing s last with
  | zero =>
    refine ⟨last, h.spaced, h.upper.le, .inr ⟨h.started, ?_⟩⟩
    have hceil : ⌈child.lifetime⌉ ≤ s.now := by
      have := hpolls.le
      push_cast at this
      omega
    exact Int.ceil_le.mp hceil
  | succ polls ih =>
    by_cases hrun : (s.now : ℚ) < child.lifetime
    · have hspaced := h.spaced
      have hupper := spaced_upper h.polled h.upper
      have hpolled : 5 ∣ s.now + 5 - last := by
        have := h.polled
        omega
      have hlower := h.lower
      have hfewer : ⌈child.lifetime⌉ < s.now + 5 + polls := by
        push_cast at hpolls
        omega
      unfold Method.after
      rw [watchChild_succ hheartbeat hrun]
      by_cases hdue : last + heartbeatSeconds ≤ s.now + 5
      · have hnow := eq_span_of_due hpolled hupper hdue
        rw [if_pos hdue, call_bind, call_onError, call_sendHeartbeat]
        rcases (control batchCode leaseSeconds (s.now + 5)).call s.control with ⟨e | u, c⟩
        · exact ⟨last, hspaced, hupper, .inl rfl⟩
        · obtain ⟨beats, hbeats, hspaced⟩ := hspaced
          apply ih hfewer
          refine ⟨h.started, ⟨last :: beats, ?_, ?_⟩, ?_, le_rfl, ?_⟩
          · exact congrArg _ hbeats
          · rw [hnow]
            exact .next hspaced
          · simp
          · have := @le_span heartbeatSeconds
            dsimp only
            omega
      · rw [if_neg hdue]
        apply ih hfewer
        have := @le_span heartbeatSeconds
        refine ⟨h.started, hspaced, hpolled, ?_, ?_⟩
        · dsimp only
          omega
        · dsimp only
          omega
    · unfold Method.after watchChild polledRunning
      rw [call_read_bind, decide_eq_false hrun]
      exact ⟨last, h.spaced, h.upper.le, .inr ⟨h.started, not_lt.mp hrun⟩⟩

/-- What the world is after a run: the child starts when the first heartbeat is accepted. -/
theorem after_runChild (haccepted : 15 ≤ heartbeatSeconds ∧ heartbeatSeconds < leaseSeconds)
    (c : σ) :
    (runChildWithHeartbeat control child batchCode leaseSeconds heartbeatSeconds).after (.start c) =
      match (control batchCode leaseSeconds 0).call c with
      | (.ok (), c) => (watchChild control child batchCode leaseSeconds heartbeatSeconds
          (enoughPolls child) (0 + heartbeatSeconds)).after ⟨0, [0], .started, c⟩
      | (.error _, c) => ⟨0, [], .notStarted, c⟩ := by
  have hcheck : ¬ (heartbeatSeconds < 15 ∨ leaseSeconds ≤ heartbeatSeconds) := by omega
  unfold runChildWithHeartbeat Method.after
  rw [raiseIf_neg hcheck, call_bind, call_check]
  dsimp only
  rw [call_bind, call_sendHeartbeat]
  dsimp only [Watch.start]
  rcases (control batchCode leaseSeconds 0).call c with ⟨e | u, c'⟩
  · rfl
  · change ((watchChild control child batchCode leaseSeconds heartbeatSeconds (enoughPolls child)
      (0 + heartbeatSeconds) >>= fun _ => check (childResult child)).call
        ⟨0, [0], .started, c'⟩).2 = _
    rw [call_bind]
    split
    · rename_i hcall
      dsimp only
      rw [hcall]
      rfl
    · rename_i hcall
      dsimp only
      rw [hcall]

theorem runChild_ends (haccepted : 15 ≤ heartbeatSeconds ∧ heartbeatSeconds < leaseSeconds)
    (c : σ) :
    let t := (runChildWithHeartbeat control child batchCode leaseSeconds heartbeatSeconds).after
      (.start c)
    t.process = .notStarted ∨ ∃ last, Ended child heartbeatSeconds last t := by
  dsimp only
  rw [after_runChild haccepted]
  split
  · rename_i c' _
    right
    have hstart : Beating heartbeatSeconds 0 (⟨0, [0], .started, c'⟩ : Watch σ) := by
      refine ⟨rfl, ⟨[], rfl, .first⟩, by simp, le_rfl, ?_⟩
      have := @le_span heartbeatSeconds
      dsimp only
      omega
    have hpolls : ⌈child.lifetime⌉ < (0 : ℤ) + enoughPolls child := by
      unfold enoughPolls
      omega
    exact watchChild_ends haccepted.1 hpolls hstart
  · exact .inl rfl

end

/-- The child runs at a time of the run. -/
def Child.RunsAt {σ : Type} (child : Child) (s : Watch σ) (t : ℚ) : Prop :=
  0 ≤ t ∧ t < child.lifetime ∧ match s.process with
    | .notStarted => False
    | .started => True
    | .terminated time => t < time

/-- For as long as the child runs, its heartbeats come less than a lease after each other, and
none of its moments is a lease or more after the last heartbeat. -/
structure KeepsLease {σ : Type} (leaseSeconds : ℤ) (child : Child) (s : Watch σ) : Prop where
  apart : s.beats.IsChain fun later earlier : ℤ =>
    child.RunsAt s later → later - earlier < leaseSeconds
  renewed : ∀ t, child.RunsAt s t → ∃ b ∈ s.beats, (b : ℚ) ≤ t ∧ t < b + leaseSeconds

section
variable {σ : Type} {s : Watch σ} {child : Child} {leaseSeconds heartbeatSeconds last : ℤ}
    {beats : List ℤ}

theorem Spaced.nonneg (hheartbeat : 0 < heartbeatSeconds) (h : Spaced heartbeatSeconds beats) :
    ∀ b ∈ beats, 0 ≤ b := by
  induction h with
  | first => simp
  | @next b beats _ ih =>
    have hspan := @le_span heartbeatSeconds
    have hb := ih b mem_cons_self
    intro a ha
    rcases mem_cons.mp ha with rfl | ha
    · omega
    · exact ih a ha

theorem Spaced.zero_mem (h : Spaced heartbeatSeconds beats) : 0 ∈ beats := by
  induction h with
  | first => exact mem_cons_self
  | next _ ih => exact mem_cons_of_mem _ ih

variable {t : ℚ} {R : ℤ → ℤ → Prop}

theorem Spaced.covers (h : Spaced heartbeatSeconds (last :: beats)) (ht : 0 ≤ t)
    (hupper : t < last + span heartbeatSeconds) :
    ∃ b ∈ last :: beats, (b : ℚ) ≤ t ∧ t < b + span heartbeatSeconds := by
  generalize hall : last :: beats = all at h
  induction h generalizing last beats with
  | first =>
    cases hall
    exact ⟨0, mem_cons_self, by simpa using ht, hupper⟩
  | @next b rest hrest ih =>
    cases hall
    by_cases hlast : ((b + span heartbeatSeconds : ℤ) : ℚ) ≤ t
    · exact ⟨_, mem_cons_self, hlast, hupper⟩
    · push_cast at hlast
      obtain ⟨a, ha, hat⟩ := ih (not_le.mp hlast) rfl
      exact ⟨a, mem_cons_of_mem _ ha, hat⟩

theorem Spaced.isChain (h : Spaced heartbeatSeconds beats)
    (hnext : ∀ b ∈ beats, b + span heartbeatSeconds ∈ beats → R (b + span heartbeatSeconds) b) :
    beats.IsChain R := by
  induction h with
  | first => exact isChain_singleton 0
  | @next b beats _ ih =>
    rw [isChain_cons_cons]
    refine ⟨hnext b (by simp) (by simp), ih ?_⟩
    intro a ha hmem
    exact hnext a (mem_cons_of_mem _ ha) (mem_cons_of_mem _ hmem)

theorem Spaced.of_isChain (h : Spaced heartbeatSeconds beats)
    (hchain : beats.IsChain R) {b : ℤ} (hb : b ∈ beats) (hfirst : b ≠ 0) :
    R b (b - span heartbeatSeconds) := by
  induction h with
  | first => exact (hfirst (mem_singleton.mp hb)).elim
  | @next a beats _ ih =>
    rw [isChain_cons_cons] at hchain
    rcases mem_cons.mp hb with rfl | hb
    · simpa using hchain.1
    · exact ih hchain.2 hb

theorem Ended.before (hended : Ended child heartbeatSeconds last s)
    (h : child.RunsAt s t) : t < last + span heartbeatSeconds := by
  obtain ⟨_, hlifetime, hprocess⟩ := h
  have hupper : (s.now : ℚ) ≤ last + span heartbeatSeconds := by exact_mod_cast hended.upper
  rcases hended.ended with hterminated | ⟨_, hnow⟩
  · rw [hterminated] at hprocess
    exact lt_of_lt_of_le hprocess hupper
  · linarith

theorem Ended.keepsLease (hheartbeat : 0 < heartbeatSeconds)
    (hended : Ended child heartbeatSeconds last s)
    (h : span heartbeatSeconds < leaseSeconds ∨ child.lifetime ≤ leaseSeconds) :
    KeepsLease leaseSeconds child s := by
  obtain ⟨beats, hbeats, hspaced⟩ := hended.spaced
  constructor
  · rw [hbeats]
    apply hspaced.isChain
    intro b hb _ hruns
    rcases h with hspan | hshort
    · omega
    · have hlater : ((b + span heartbeatSeconds : ℤ) : ℚ) < leaseSeconds :=
        hruns.2.1.trans_le hshort
      have hb := hspaced.nonneg hheartbeat b hb
      have : b + span heartbeatSeconds < leaseSeconds := by exact_mod_cast hlater
      omega
  · intro t hruns
    rw [hbeats]
    rcases h with hspan | hshort
    · obtain ⟨b, hb, hle, hlt⟩ := hspaced.covers hruns.1 (hended.before hruns)
      have : (span heartbeatSeconds : ℚ) < leaseSeconds := by exact_mod_cast hspan
      exact ⟨b, hb, hle, by linarith⟩
    · refine ⟨0, hspaced.zero_mem, by simpa using hruns.1, ?_⟩
      have := hruns.2.1
      push_cast
      linarith

theorem keepsLease_of_notStarted (h : s.process = .notStarted) : KeepsLease leaseSeconds child s := by
  have hruns : ∀ t, ¬ child.RunsAt s t := by
    intro t ht
    have := ht.2.2
    rw [h] at this
    exact this
  refine ⟨Pairwise.isChain (pairwise_of_forall fun later _ hlater => ?_), fun t ht => ?_⟩
  · exact (hruns later hlater).elim
  · exact (hruns t ht).elim

theorem Ended.not_keepsLease (hlease : 0 ≤ leaseSeconds)
    (hended : Ended child heartbeatSeconds last s) (hstarted : s.process = .started)
    (hspan : leaseSeconds ≤ span heartbeatSeconds) (hlong : (leaseSeconds : ℚ) < child.lifetime) :
    ¬ KeepsLease leaseSeconds child s := by
  intro h
  obtain ⟨beats, hbeats, hspaced⟩ := hended.spaced
  have hruns : ∀ t : ℚ, 0 ≤ t → t ≤ leaseSeconds → child.RunsAt s t := by
    intro t h0 ht
    refine ⟨h0, ht.trans_lt hlong, ?_⟩
    rw [hstarted]
    trivial
  have hlease' : (0 : ℚ) ≤ leaseSeconds := by exact_mod_cast hlease
  obtain ⟨b, hb, hle, hlt⟩ := h.renewed leaseSeconds (hruns _ hlease' le_rfl)
  have hpos : 0 < b := by
    have : (0 : ℚ) < b := by linarith
    exact_mod_cast this
  have happart := h.apart
  rw [hbeats] at hb happart
  have hgap := hspaced.of_isChain happart hb hpos.ne'
    (hruns b (by exact_mod_cast hpos.le) hle)
  omega

end

def accepting : Control Unit := fun _ _ _ => pure ()

theorem watchChild_accepting {child : Child} {batchCode : String}
    {leaseSeconds heartbeatSeconds : ℤ} (hheartbeat : 15 ≤ heartbeatSeconds) (polls : ℕ)
    (next : ℤ) (s : Watch Unit) :
    ((watchChild accepting child batchCode leaseSeconds heartbeatSeconds polls next).after
      s).process = s.process := by
  induction polls generalizing next s with
  | zero => rfl
  | succ polls ih =>
    by_cases hrun : (s.now : ℚ) < child.lifetime
    · unfold Method.after
      rw [watchChild_succ hheartbeat hrun]
      split
      · rw [call_bind, call_onError, call_sendHeartbeat]
        exact ih _ _
      · exact ih _ _
    · unfold Method.after watchChild polledRunning
      rw [call_read_bind, decide_eq_false hrun]
      rfl

theorem not_keepsLease_accepting {leaseSeconds heartbeatSeconds : ℤ}
    (haccepted : 15 ≤ heartbeatSeconds ∧ heartbeatSeconds < leaseSeconds) {child : Child}
    {batchCode : String} (hspan : leaseSeconds ≤ span heartbeatSeconds)
    (hlong : (leaseSeconds : ℚ) < child.lifetime) :
    ¬ KeepsLease leaseSeconds child
      ((runChildWithHeartbeat accepting child batchCode leaseSeconds heartbeatSeconds).after
        (.start ())) := by
  have hends := @runChild_ends Unit accepting child batchCode _ _ haccepted ()
  dsimp only at hends
  rw [after_runChild haccepted] at hends ⊢
  have hprocess := @watchChild_accepting child batchCode leaseSeconds _ haccepted.1
    (enoughPolls child) (0 + heartbeatSeconds)
    ⟨0, [0], .started, ()⟩
  rcases hends with hnot | ⟨last, hended⟩
  · exact nomatch hprocess.symm.trans hnot
  · exact hended.not_keepsLease (by omega) hprocess hspan hlong

/-- For an accepted pair of intervals and a child: whatever the control answers, the lease is kept
while the child runs, exactly when a span is shorter than the lease or the child ends with its
first lease. -/
theorem keepsLease_iff {leaseSeconds heartbeatSeconds : ℤ}
    (haccepted : 15 ≤ heartbeatSeconds ∧ heartbeatSeconds < leaseSeconds) (child : Child)
    (batchCode : String) :
    (∀ (σ : Type) (control : Control σ) (c : σ), KeepsLease leaseSeconds child
        ((runChildWithHeartbeat control child batchCode leaseSeconds heartbeatSeconds).after
          (.start c))) ↔
      span heartbeatSeconds < leaseSeconds ∨ child.lifetime ≤ leaseSeconds := by
  have hheartbeat : 0 < heartbeatSeconds := by omega
  constructor
  · intro h
    by_contra hcondition
    rw [not_or, not_lt, not_le] at hcondition
    exact not_keepsLease_accepting haccepted hcondition.1 hcondition.2 (h Unit accepting ())
  · intro h σ control c
    rcases @runChild_ends σ control child batchCode _ _ haccepted c with hnot | ⟨last, hended⟩
    · exact keepsLease_of_notStarted hnot
    · exact hended.keepsLease hheartbeat h

/-- The default intervals keep the lease of a child that runs for a day. -/
theorem keepsLease_default : KeepsLease 1800 ⟨86400, 0, "{}"⟩
    ((runChildWithHeartbeat accepting ⟨86400, 0, "{}"⟩ "B001" 1800 300).after (.start ())) :=
  (keepsLease_iff (by decide) _ _).mpr (.inl (by decide)) Unit accepting ()

/-- A heartbeat every 301 seconds comes after 305: the lease of 302 seconds is lost. -/
theorem lost_lease : ¬ KeepsLease 302 ⟨400, 0, "{}"⟩
    ((runChildWithHeartbeat accepting ⟨400, 0, "{}"⟩ "B001" 302 301).after (.start ())) :=
  not_keepsLease_accepting (by decide) (by decide) (by norm_num)

end TradingLab.Factory
