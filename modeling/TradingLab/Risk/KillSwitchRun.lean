import TradingLab.Risk.EntryApproval

/-!
# Runs of the kill switch

The caller keeps the last accepted state. Over any run that state says what the
accepted events say: the switch is active until the first reset, and again from
the first breaker reported after the last reset. No event names a symbol, so the
evidence of every symbol drives the one switch.
-/

namespace TradingLab

open List

namespace KillSwitch

/-- The state is replaced when the transition accepts the event. -/
def advance (event : KillSwitchEvent) : Method (Option KillSwitchState) KillSwitchError Unit :=
  .replaceBy fun previous => do
    let transition ← applyKillSwitchEvent previous event
    return some transition.current

variable {e : KillSwitchEvent} {s : Option KillSwitchState} {k : KillSwitchState}
  {c : CircuitAssessment} {es : List KillSwitchEvent}

theorem accepts_eq_ok {s' : Option KillSwitchState} :
    (do let t ← applyKillSwitchEvent s e; return some t.current) = .ok s' ↔
      ∃ k, _nextState s e = .ok k ∧ s' = some k := by
  rw [bind_eq_ok]
  constructor
  · rintro ⟨t, ht, hs⟩
    cases hs
    exact ⟨t.current, (applyKillSwitchEvent_eq_ok.mp ht).1, rfl⟩
  · rintro ⟨k, hk, rfl⟩
    have hv : (⟨s, e, k⟩ : KillSwitchTransition.Fields).postInit = .ok () := by
      unfold KillSwitchTransition.Fields.postInit
      rw [hk, ok_bind]
      simp
    exact ⟨⟨_, hv⟩, applyKillSwitchEvent_eq_ok.mpr ⟨hk, rfl⟩, rfl⟩

theorem call_advance (h : _nextState s e = .ok k) : (advance e).call s = (.ok (), some k) :=
  Method.call_replaceBy (accepts_eq_ok.mpr ⟨k, h, rfl⟩)

theorem after_advance_of_returns
    (h : (advance e).Returns s) : ∃ k, _nextState s e = .ok k ∧ (advance e).after s = some k :=
  accepts_eq_ok.mp (Method.after_replaceBy_of_returns h)

def reported (e : KillSwitchEvent) : List CircuitBreaker :=
  e.circuitAssessment.elim [] fun c => c.triggeredBreakers

theorem reported_of_mem (h : c ∈ e.circuitAssessment) : reported e = c.triggeredBreakers := by
  unfold reported
  rw [Option.mem_def.mp h]
  rfl

inductive Response (k : KillSwitchState) (c : CircuitAssessment) :
    KillSwitchEventType → KillSwitchMode → KillSwitchReason → List CircuitBreaker → Prop where
  | reset (active : k.mode = .triggered) (clear : c.triggeredBreakers = []) :
      Response k c .manualReset .inactive .manualReset []
  | triggered {t : KillSwitchEventType} (observed : t ≠ .manualReset)
      (breached : c.triggeredBreakers ≠ []) :
      Response k c t .triggered .circuitBreakerTriggered
        (_mergeBreakers k.triggeredBreakers c.triggeredBreakers)
  | latched {t : KillSwitchEventType} (observed : t ≠ .manualReset)
      (clear : c.triggeredBreakers = []) (active : k.mode = .triggered) :
      Response k c t .triggered .latchedUntilManualReset k.triggeredBreakers
  | clear {t : KillSwitchEventType} (observed : t ≠ .manualReset)
      (clear : c.triggeredBreakers = []) (quiet : k.mode ≠ .triggered) :
      Response k c t .inactive .circuitClear []

theorem response_of_respond {t : KillSwitchEventType}
    {m : KillSwitchMode} {r : KillSwitchReason} {bs : List CircuitBreaker}
    (h : _respond k t c = .ok (m, r, bs)) : Response k c t m r bs := by
  unfold _respond at h
  split at h
  · rename_i ht
    subst ht
    rw [raiseIf_bind_eq_ok, raiseIf_bind_eq_ok, not_not, not_not] at h
    obtain ⟨hm, hc, h⟩ := h
    cases h
    exact .reset hm hc
  rename_i ht
  split at h
  · rename_i hc
    cases h
    exact .triggered ht hc
  rename_i hc
  split at h
  · rename_i hm
    cases h
    exact .latched ht (not_not.mp hc) hm
  · rename_i hm
    cases h
    exact .clear ht (not_not.mp hc) hm

/-- The accepted events after the last manual reset. -/
def sinceReset (es : List KillSwitchEvent) : List KillSwitchEvent :=
  es.rtakeWhile fun e => e.eventType ≠ .manualReset

theorem sinceReset_snoc_reset (h : e.eventType = .manualReset) : sinceReset (es ++ [e]) = [] :=
  List.rtakeWhile_concat_neg _ _ _ (by simp [h])

theorem sinceReset_snoc
    (h : e.eventType ≠ .manualReset) : sinceReset (es ++ [e]) = sinceReset es ++ [e] :=
  List.rtakeWhile_concat_pos _ _ _ (by simp [h])

/-- The union of the breakers reported by some events, in the fixed order. -/
def unionReported (es : List KillSwitchEvent) : List CircuitBreaker :=
  _breakerOrder.filter fun b => es.any fun e => b ∈ reported e

theorem unionReported_snoc (es : List KillSwitchEvent) (e : KillSwitchEvent) :
    unionReported (es ++ [e]) = _mergeBreakers (unionReported es) (reported e) := by
  unfold unionReported _mergeBreakers
  apply filter_congr
  intro b hb
  rw [Bool.eq_iff_iff]
  simp [hb, or_and_right, exists_or]

theorem merge_unionReported_nil (es : List KillSwitchEvent) :
    _mergeBreakers (unionReported es) [] = unionReported es := by
  unfold _mergeBreakers unionReported
  apply filter_congr
  intro b hb
  rw [Bool.eq_iff_iff]
  simp [hb]

theorem unionReported_of_clear (h : ∀ e ∈ es, reported e = []) :
    unionReported es = [] := by
  unfold unionReported
  rw [filter_eq_nil_iff]
  intro b _ hb
  obtain ⟨e, he, hm⟩ := any_eq_true.mp hb
  rw [h e he] at hm
  simp at hm

/-- The evidence of the later event is of a later time. -/
def Newer (earlier later : KillSwitchEvent) : Prop :=
  ∀ c ∈ earlier.circuitAssessment, ∀ c' ∈ later.circuitAssessment,
    c.managedState.decisionTimeMs < c'.managedState.decisionTimeMs

/-- What the accepted events say about the state. -/
structure RunLaw (es : List KillSwitchEvent) (s : KillSwitchState) : Prop where
  active : s.active = true ↔
    (∀ e ∈ es, e.eventType ≠ .manualReset) ∨ ∃ e ∈ sinceReset es, reported e ≠ []
  breakers : s.triggeredBreakers = unionReported (sinceReset es)
  newer : es.Pairwise Newer
  consumed : ∀ e ∈ es, ∀ c ∈ e.circuitAssessment,
    ∃ last ∈ s.lastCircuitTimeMs, c.managedState.decisionTimeMs ≤ last
  last : ∀ time ∈ s.lastCircuitTimeMs, ∃ e ∈ es.getLast?, ∃ c ∈ e.circuitAssessment,
    c.managedState.decisionTimeMs = time ∧ s.lastCircuitSha256 = some c.circuitSha256

theorem runLaw_first {s : KillSwitchState} (h : _nextState none e = .ok s) :
    RunLaw [e] s := by
  obtain ⟨ht, hs⟩ := _nextState_none.mp h
  have hc : e.circuitAssessment = none := by
    have hv := e.valid
    unfold KillSwitchEvent.Fields.postInit at hv
    simp only [unit_bind_eq_ok, raiseIf_eq_ok, not_not] at hv
    have := hv.2.2.1
    unfold KillSwitchEvent.Fields.consistent at this
    rw [ht] at this
    exact this.2.1
  have hm : e.eventType ≠ .manualReset := by
    rw [ht]
    decide
  have hr : reported e = [] := by
    unfold reported
    rw [hc]
    rfl
  refine ⟨?_, ?_, pairwise_singleton _ _, ?_, ?_⟩
  · have : s.active = true := by
      unfold KillSwitchState.active
      rw [hs]
      rfl
    simp [this, hm]
  · have hl : sinceReset [e] = [e] := @sinceReset_snoc e [] hm
    rw [hs, hl, unionReported_of_clear (by simpa using hr)]
  · intro e' he' c hc'
    rw [mem_singleton] at he'
    subst he'
    rw [hc] at hc'
    cases hc'
  · intro time htime
    rw [hs] at htime
    cases htime

/-- An accepted event extends the law. -/
theorem RunLaw.next {s : KillSwitchState}
    (hk : RunLaw es k) (h : _nextState (some k) e = .ok s) : RunLaw (es ++ [e]) s := by
  obtain ⟨c, hc, -, -, -, hlast, hr, -, -, htime, hsha, -⟩ := _nextState_some h
  have hrep : reported e = c.triggeredBreakers := reported_of_mem hc
  have hconsumed : ∀ e' ∈ es ++ [e], ∀ c' ∈ e'.circuitAssessment,
      ∃ last ∈ s.lastCircuitTimeMs, c'.managedState.decisionTimeMs ≤ last := by
    intro e' he' c' hc'
    refine ⟨c.managedState.decisionTimeMs, htime, ?_⟩
    rcases mem_append.mp he' with he' | he'
    · obtain ⟨last, hl, hle⟩ := hk.consumed e' he' c' hc'
      exact hle.trans (hlast last hl).le
    · rw [mem_singleton] at he'
      subst he'
      rw [Option.mem_unique hc hc']
  have hnewer : (es ++ [e]).Pairwise Newer := by
    rw [pairwise_append]
    refine ⟨hk.newer, pairwise_singleton _ _, ?_⟩
    intro e' he' e'' he'' c' hc' c'' hc''
    rw [mem_singleton] at he''
    subst he''
    obtain ⟨last, hl, hle⟩ := hk.consumed e' he' c' hc'
    rw [Option.mem_unique hc'' hc]
    exact hle.trans_lt (hlast last hl)
  have hlastly : ∀ time ∈ s.lastCircuitTimeMs, ∃ e' ∈ (es ++ [e]).getLast?,
      ∃ c' ∈ e'.circuitAssessment, c'.managedState.decisionTimeMs = time ∧
        s.lastCircuitSha256 = some c'.circuitSha256 := by
    intro time ht
    refine ⟨e, by simp, c, hc, ?_, hsha⟩
    exact Option.mem_unique htime ht
  have hresp := response_of_respond hr
  generalize htype : e.eventType = t at hresp
  generalize hmode : s.mode = m at hresp
  generalize hreason : s.reason = r at hresp
  generalize hbs : s.triggeredBreakers = bs at hresp
  have hactive : s.active = decide (m = .triggered) := by
    unfold KillSwitchState.active
    rw [hmode]
  cases hresp with
  | reset _ _ =>
    refine ⟨?_, ?_, hnewer, hconsumed, hlastly⟩
    · rw [hactive, sinceReset_snoc_reset htype]
      simp [htype]
    · rw [hbs, sinceReset_snoc_reset htype]
      exact (unionReported_of_clear (by simp)).symm
  | triggered ho hb =>
    have hne : e.eventType ≠ .manualReset := by rwa [htype]
    refine ⟨?_, ?_, hnewer, hconsumed, hlastly⟩
    · rw [hactive, sinceReset_snoc hne]
      simp [hrep, hb]
    · rw [hbs, sinceReset_snoc hne, unionReported_snoc, hrep, hk.breakers]
  | latched ho hcl hm =>
    have hne : e.eventType ≠ .manualReset := by rwa [htype]
    have hka : k.active = true := by
      unfold KillSwitchState.active
      simp [hm]
    refine ⟨?_, ?_, hnewer, hconsumed, hlastly⟩
    · rw [hactive, sinceReset_snoc hne]
      have := hk.active.mp hka
      simpa [hrep, hcl, hne, or_imp, forall_and] using this
    · rw [hbs, sinceReset_snoc hne, unionReported_snoc, hrep, hcl, hk.breakers,
        merge_unionReported_nil]
  | clear ho hcl hm =>
    have hne : e.eventType ≠ .manualReset := by rwa [htype]
    have hka : ¬ k.active = true := by
      unfold KillSwitchState.active
      simp [hm]
    have hquiet := mt hk.active.mpr hka
    rw [not_or] at hquiet
    obtain ⟨hreset, hclear⟩ := hquiet
    have hall : ∀ e' ∈ sinceReset es ++ [e], reported e' = [] := by
      intro e' he'
      rcases mem_append.mp he' with he' | he'
      · by_contra hb
        exact hclear ⟨e', he', hb⟩
      · rw [mem_singleton.mp he', hrep, hcl]
    refine ⟨?_, ?_, hnewer, hconsumed, hlastly⟩
    · rw [hactive, sinceReset_snoc hne]
      constructor
      · intro hf
        simp at hf
      · rintro (hno | ⟨e', he', hb⟩)
        · exact (hreset fun e' he' => hno e' (mem_append_left _ he')).elim
        · exact (hb (hall e' he')).elim
    · rw [hbs, sinceReset_snoc hne, unionReported_of_clear hall]

def Lawful (es : List KillSwitchEvent) : Option KillSwitchState → Prop
  | none => es = []
  | some k => RunLaw es k

theorem lawful_run (events : List KillSwitchEvent) :
    Lawful (Method.accepted advance events none) (Method.run advance events none) := by
  apply Method.run_accepted
  · rfl
  · intro es e s hs hr
    unfold advance at hr ⊢
    rwa [Method.after_replaceBy_of_rejected hr]
  · intro es e s hs hr
    obtain ⟨k, hk, ha⟩ := after_advance_of_returns hr
    rw [ha]
    cases s with
    | none =>
      have : es = [] := hs
      subst this
      exact runLaw_first hk
    | some p => exact RunLaw.next hs hk

/-- Leaving the triggered mode takes a confirmed reset with clear evidence, newer than all the
evidence before it. -/
def ResetBy (es : List KillSwitchEvent) (e : KillSwitchEvent) : Prop :=
  e.eventType = .manualReset ∧ e.circuitAssessment.isSome ∧ reported e = [] ∧
    ∀ e' ∈ es, Newer e' e

theorem RunLaw.resetBy {s : KillSwitchState}
    (hk : RunLaw es k) (h : _nextState (some k) e = .ok s) (hactive : k.active = true)
    (hs : s.active = false) : ResetBy es e := by
  obtain ⟨c, hc, -, -, -, -, hr, -⟩ := _nextState_some h
  have hrep : reported e = c.triggeredBreakers := reported_of_mem hc
  have hnewer := (pairwise_append.mp (hk.next h).newer).2.2
  have hresp := response_of_respond hr
  have hmode : s.mode ≠ .triggered := by
    unfold KillSwitchState.active at hs
    simpa using hs
  have hkmode : k.mode = .triggered := by
    unfold KillSwitchState.active at hactive
    simpa using hactive
  generalize htype : e.eventType = t at hresp
  generalize hm : s.mode = m at hresp hmode
  generalize s.reason = r at hresp
  generalize s.triggeredBreakers = bs at hresp
  cases hresp with
  | reset _ hclear =>
    refine ⟨htype, ?_, hrep.trans hclear, fun e' he' => hnewer e' he' e (by simp)⟩
    rw [Option.mem_def.mp hc]
    rfl
  | triggered => exact (hmode rfl).elim
  | latched => exact (hmode rfl).elim
  | clear _ _ hquiet => exact (hquiet hkmode).elim

/-- **Run law of the kill switch.** -/
theorem kill_switch_run_law (events : List KillSwitchEvent) :
    Lawful (Method.accepted advance events none) (Method.run advance events none) ∧
    ∀ e, (¬ (advance e).Returns (Method.run advance events none) →
        (advance e).after (Method.run advance events none) = Method.run advance events none) ∧
      ∀ k s, Method.run advance events none = some k →
        (advance e).after (Method.run advance events none) = some s →
        k.active = true → s.active = false → ResetBy (Method.accepted advance events none) e := by
  have hlaw := lawful_run events
  refine ⟨hlaw, fun e => ⟨Method.after_replaceBy_of_rejected, ?_⟩⟩
  intro k s hk hs hactive hquiet
  rw [hk] at hlaw hs
  by_cases hr : (advance e).Returns (some k)
  · obtain ⟨s', hn, ha⟩ := after_advance_of_returns hr
    rw [ha] at hs
    cases hs
    exact RunLaw.resetBy hlaw hn hactive hquiet
  · have hsame := Method.after_replaceBy_of_rejected hr
    have := hs.symm.trans hsame
    cases this
    rw [hactive] at hquiet
    cases hquiet

/-- A chain with its startup only. -/
def startupEvent : KillSwitchEvent where
  sequence := 0
  eventTimeMs := 0
  eventType := .startup
  valid := by decide

theorem call_startupEvent : ∃ k : KillSwitchState, k.active = true ∧
    (advance startupEvent).call none = (.ok (), some k) := by
  obtain ⟨k, hk, hm⟩ := exists_firstState (e := startupEvent) rfl
  refine ⟨k, ?_, call_advance hk⟩
  unfold KillSwitchState.active
  simp [hm]

/-- After the startup the switch is active, and nothing was reported. -/
theorem not_active_iff_reported :
    ¬ ∀ (events : List KillSwitchEvent) (k : KillSwitchState),
      Method.run advance events none = some k →
        (k.active = true ↔
          ∃ e ∈ sinceReset (Method.accepted advance events none), reported e ≠ []) := by
  intro law
  obtain ⟨k, hactive, hk⟩ := call_startupEvent
  have hreturns : (advance startupEvent).Returns none := ⟨(), congrArg Prod.fst hk⟩
  have hrun : Method.run advance [startupEvent] none = some k := congrArg Prod.snd hk
  have haccepted : Method.accepted advance [startupEvent] none = [startupEvent] := by
    simp [Method.accepted, hreturns]
  obtain ⟨e, he, hr⟩ := (law _ k hrun).mp hactive
  rw [haccepted] at he
  have hse : sinceReset [startupEvent] = [startupEvent] :=
    @sinceReset_snoc startupEvent [] (by decide)
  rw [hse, List.mem_singleton] at he
  subst he
  exact hr rfl

def assessedSymbol (e : KillSwitchEvent) : Option Symbol :=
  e.circuitAssessment.map fun c => c.managedState.symbol

/-- Every reset is confirmed with evidence of each symbol that triggered since the last one. -/
def SymbolIsolated (es : List KillSwitchEvent) : Prop :=
  ∀ before reset after, es = before ++ reset :: after → reset.eventType = .manualReset →
    ∀ e ∈ sinceReset before, reported e ≠ [] → assessedSymbol e = assessedSymbol reset

theorem symbolIsolated_of_one {symbol : Symbol}
    (h : ∀ e ∈ es, ∀ c ∈ e.circuitAssessment, c.managedState.symbol = symbol) :
    SymbolIsolated es := by
  have hone : ∀ e ∈ es, e.eventType ≠ .startup → assessedSymbol e = some symbol := by
    intro e he ht
    obtain ⟨c, hc⟩ := Option.isSome_iff_exists.mp (assessment_of_event ht)
    unfold assessedSymbol
    rw [hc, Option.map_some, h e he c hc]
  intro before reset after hes ht e he hr
  have hmem : e ∈ before := (rtakeWhile_suffix _ _).subset he
  have hs : e.eventType ≠ .startup := by
    intro hs
    have hv := e.valid
    unfold KillSwitchEvent.Fields.postInit at hv
    simp only [unit_bind_eq_ok, raiseIf_eq_ok, not_not] at hv
    have hc := hv.2.2.1
    unfold KillSwitchEvent.Fields.consistent at hc
    rw [hs] at hc
    apply hr
    unfold reported
    rw [hc.2.1]
    rfl
  rw [hone e (by rw [hes]; exact mem_append_left _ hmem) hs,
    hone reset (by rw [hes]; simp) (by rw [ht]; decide)]

/-- What an approved entry owes to the switch: the evidence consumed last is clear evidence of the
entry's own symbol. -/
def OwnEvidenceLast (es : List KillSwitchEvent) (r : RiskRequest) (s : ManagedPortfolioState)
    (c : CircuitAssessment) : Prop :=
  (c.request = r ∧ c.managedState = s ∧ s.symbol = r.strategyDecision.symbol ∧
    c.triggeredBreakers = []) ∧
  ∃ e ∈ es.getLast?, ∃ c' ∈ e.circuitAssessment, c'.circuitSha256 = c.circuitSha256 ∧
    c'.managedState.decisionTimeMs = s.decisionTimeMs

theorem RunLaw.ownEvidenceLast {r : RiskRequest} {s : ManagedPortfolioState}
    {p : Option ProtectiveAssessment} {a : RiskAuthorization} (hk : RunLaw es k)
    (h : authorizePaperRequest r s k c p = .ok a) (ha : r.strategyDecision.action = .enterLong)
    (hd : a.decision.disposition = .approvePaper) : OwnEvidenceLast es r s c := by
  obtain ⟨⟨hr, hs⟩, -, ⟨hsha, htime⟩, -, -, hclear, -⟩ :=
    RiskAdapter.approved_of_decisionFor (RiskAdapter.authorize_eq_ok h) ha hd
  have hsymbol : s.symbol = r.strategyDecision.symbol := by
    have hbound := c.bound.1
    rw [hr, hs] at hbound
    have hv := r.valid
    unfold RiskRequest.Fields.postInit at hv
    rw [raiseIf_bind_eq_ok, not_or, not_not] at hv
    rw [hv.1.1, hbound]
    rfl
  obtain ⟨e, he, c', hc', ht, hsha'⟩ := hk.last _ htime
  rw [hsha] at hsha'
  exact ⟨⟨hr, hs, hsymbol, hclear⟩, e, he, c', hc', (Option.some.inj hsha').symm, ht⟩

/-- **Evidence of the symbols.** The switch is shared: a reset needs evidence newer than all before
it, of whichever symbol, and in a run of one symbol it is that symbol's own. An entry is approved
only when its own symbol was assessed last. -/
theorem kill_switch_symbols (events : List KillSwitchEvent) :
    (Method.accepted advance events none).Pairwise Newer ∧
    ((∃ symbol, ∀ e ∈ Method.accepted advance events none, ∀ c ∈ e.circuitAssessment,
        c.managedState.symbol = symbol) → SymbolIsolated (Method.accepted advance events none)) ∧
    ∀ k, Method.run advance events none = some k → ∀ r s c p a,
      authorizePaperRequest r s k c p = .ok a → r.strategyDecision.action = .enterLong →
        a.decision.disposition = .approvePaper →
          OwnEvidenceLast (Method.accepted advance events none) r s c := by
  have hlaw := lawful_run events
  refine ⟨?_, ?_, ?_⟩
  · cases hrun : Method.run advance events none with
    | none =>
      rw [hrun] at hlaw
      have hnil : Method.accepted advance events none = [] := hlaw
      rw [hnil]
      exact List.Pairwise.nil
    | some k =>
      rw [hrun] at hlaw
      exact RunLaw.newer hlaw
  · rintro ⟨symbol, hone⟩
    exact symbolIsolated_of_one hone
  · intro k hk r s c p a h ha hd
    rw [hk] at hlaw
    exact RunLaw.ownEvidenceLast hlaw h ha hd

/-- A flat state after some losses. -/
def lossesFields (symbol : Symbol) (time losses : ℤ) : ManagedPortfolioState.Fields where
  symbol := symbol
  sequence := 1
  decisionTimeMs := time
  sessionStartTimeMs := 10800000
  sessionStartEquityQuote := "10000"
  equityQuote := "10000"
  cashQuote := "10000"
  positionQuantity := "0"
  markPrice := "100"
  peakEquityQuote := "10000"
  sessionRealizedPnlQuote := "0"
  consecutiveLosses := losses
  openPositions := 0
  grossExposureQuote := "0"
  previousStateSha256 := some (String.ofList (List.replicate 64 '0'))
  observationSha256 := String.ofList (List.replicate 64 '0')

def bitcoinState : ManagedPortfolioState := ⟨lossesFields .btcusdt 14400000 3, by decide +kernel⟩

def etherState : ManagedPortfolioState := ⟨lossesFields .ethusdt 18000000 0, by decide +kernel⟩

/-- The other symbol an hour later. -/
def etherSnapshot : MarketSnapshot where
  symbol := .ethusdt
  decisionTimeMs := 18000000
  primary := [⟨Candle.flat .ethusdt .h1 14400000 "100", by decide⟩]
  context := [⟨Candle.flat .ethusdt .m15 17100000 "100", by decide⟩]
  regime := [⟨Candle.flat .ethusdt .h4 0 "100", by decide⟩]
  valid := by decide

def quietDecision (snapshot : MarketSnapshot) : StrategyDecision where
  context := .of trendPullbackIdentity snapshot
  action := .noTrade
  reason := .setupAbsent
  valid := by
    unfold StrategyDecision.Fields.postInit
    rw [raiseIf_eq_ok, not_not]
    exact ⟨rfl, by simp [noTradeReasons]⟩

/-- Three losses of one symbol. -/
def bitcoinCircuit : CircuitAssessment where
  request := ⟨⟨quietDecision .earliest, .qualifiedForP4Research, bitcoinState.toRiskState true, .frozen⟩,
    by decide⟩
  managedState := bitcoinState
  disposition := .noAction
  reason := .noStrategyAction
  triggeredBreakers := [.consecutiveLossLimit]
  sessionLossQuote := "0"
  sessionLossLimitQuote := "200.00"
  drawdownQuote := "0"
  drawdownLimitQuote := "1000.00"
  consecutiveLosses := 3
  consecutiveLossLimit := 3
  valid := by decide +kernel

/-- No losses of the other. -/
def etherCircuit : CircuitAssessment where
  request := ⟨⟨quietDecision etherSnapshot, .qualifiedForP4Research, etherState.toRiskState true, .frozen⟩,
    by decide⟩
  managedState := etherState
  disposition := .noAction
  reason := .noStrategyAction
  triggeredBreakers := []
  sessionLossQuote := "0"
  sessionLossLimitQuote := "200.00"
  drawdownQuote := "0"
  drawdownLimitQuote := "1000.00"
  consecutiveLosses := 0
  consecutiveLossLimit := 3
  valid := by decide +kernel

def bitcoinTrigger : KillSwitchEvent where
  sequence := 1
  eventTimeMs := 14400000
  eventType := .circuitObservation
  circuitAssessment := some bitcoinCircuit
  valid := by decide

def etherReset : KillSwitchEvent where
  sequence := 2
  eventTimeMs := 18000000
  eventType := .manualReset
  circuitAssessment := some etherCircuit
  manualConfirmation := true
  valid := by decide

/-- The reset is accepted although it speaks of another symbol than the trigger. -/
theorem not_symbol_isolated :
    ¬ ∀ events : List KillSwitchEvent, SymbolIsolated (Method.accepted advance events none) := by
  intro law
  obtain ⟨k₀, h₀, hm₀⟩ := exists_firstState (e := startupEvent) rfl
  have hf₀ := (_nextState_none.mp h₀).2
  have hr₁ : _respond k₀ bitcoinTrigger.eventType bitcoinCircuit = .ok (.triggered,
      .circuitBreakerTriggered, _mergeBreakers k₀.triggeredBreakers [.consecutiveLossLimit]) := rfl
  obtain ⟨k₁, h₁, hf₁⟩ := exists_nextState (k := k₀) (e := bitcoinTrigger) rfl (by decide)
    (by rw [hf₀]; rfl) (by rw [hf₀]; decide) (by rw [hf₀]; simp) hr₁
  have hm₁ : k₁.mode = .triggered := by rw [hf₁]
  have ht₁ : k₁.eventTimeMs = 14400000 := by
    rw [hf₁]
    rfl
  have hl₁ : k₁.lastCircuitTimeMs = some 14400000 := by
    rw [hf₁]
    rfl
  have hr₂ : _respond k₁ etherReset.eventType etherCircuit = .ok (.inactive, .manualReset, []) := by
    unfold _respond
    rw [show etherReset.eventType = .manualReset from rfl, if_pos rfl,
      raiseIf_neg (not_not.mpr hm₁), ok_bind, raiseIf_neg (by simp [etherCircuit])]
    rfl
  obtain ⟨k₂, h₂, hf₂⟩ := exists_nextState (k := k₁) (e := etherReset) rfl (by decide)
    (by rw [hf₁]; rfl) (by rw [ht₁]; decide) (by rw [hl₁]; decide) hr₂
  have c₀ := call_advance h₀
  have c₁ := call_advance h₁
  have c₂ := call_advance h₂
  have haccepted : Method.accepted advance [startupEvent, bitcoinTrigger, etherReset] none =
      [startupEvent, bitcoinTrigger] ++ etherReset :: [] := by
    have a₀ : (advance startupEvent).after none = some k₀ := congrArg Prod.snd c₀
    have a₁ : (advance bitcoinTrigger).after (some k₀) = some k₁ := congrArg Prod.snd c₁
    have r₀ : (advance startupEvent).Returns none := ⟨(), congrArg Prod.fst c₀⟩
    have r₁ : (advance bitcoinTrigger).Returns (some k₀) := ⟨(), congrArg Prod.fst c₁⟩
    have r₂ : (advance etherReset).Returns (some k₁) := ⟨(), congrArg Prod.fst c₂⟩
    simp only [Method.accepted, a₀, a₁, r₀, r₁, r₂, if_true, List.cons_append, List.nil_append]
  have hsince : bitcoinTrigger ∈ sinceReset [startupEvent, bitcoinTrigger] := by
    have h := @sinceReset_snoc bitcoinTrigger [startupEvent] (by decide)
    rw [List.singleton_append] at h
    rw [h]
    simp
  have hsame := law _ _ _ _ haccepted rfl bitcoinTrigger hsince (by decide)
  exact absurd hsame (by decide)

end KillSwitch

end TradingLab
