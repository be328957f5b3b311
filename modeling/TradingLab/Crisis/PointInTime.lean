import TradingLab.Alike
import TradingLab.Crisis.Replay

/-!
# The Crisis Lab sees no future

Two datasets with the same past give the same events, and the loop over them
reads nothing else of a dataset than whether an hour has a candle, and then that
candle. Where a view is stale the strategy is not asked, and an open position is
left to its bracket.
-/

namespace TradingLab

open Decimal AcceptedBacktestDataset List

namespace Crisis

/-- What the admission of a dataset guarantees of its series: the candles are of their market and
interval, closed, and in order. -/
structure Admitted (d : AcceptedBacktestDataset) : Prop where
  identity : ∀ i, ∀ c ∈ d.history i, c.symbol = d.spec.symbol ∧ c.interval = i ∧ c.isClosed = true
  sorted : ∀ i, (d.history i).Pairwise fun a b => a.openTimeMs < b.openTimeMs

/-- Two datasets agree on what is closed before a time, and on whether it has a candle to fill in. -/
structure SamePast (t : ℤ) (d d' : AcceptedBacktestDataset) : Prop where
  spec : d.spec = d'.spec
  closed : ∀ i, visible t (d.history i) = visible t (d'.history i)
  fill : (∃ c ∈ d.primary, c.openTimeMs = t) ↔ ∃ c ∈ d'.primary, c.openTimeMs = t

variable {d d' : AcceptedBacktestDataset} {t u : ℤ}

theorem visible_visible (hu : u ≤ t) (candles : List Candle) :
    visible u (visible t candles) = visible u candles := by
  unfold visible
  rw [filter_filter]
  apply filter_congr
  intro c _
  rw [← Bool.decide_and, decide_eq_decide]
  omega

theorem SamePast.visible_eq (h : SamePast t d d') (hu : u ≤ t) (i : Interval) :
    visible u (d.history i) =
      visible u (d'.history i) := by
  rw [← visible_visible hu, h.closed, visible_visible hu]

theorem SamePast.suffixes_eq (h : SamePast t d d') (hu : u ≤ t) : suffixes d u = suffixes d' u := by
  have hvisible := h.visible_eq hu
  unfold suffixes visibleContiguousSuffix
  rw [show visible u d.primary = _ from hvisible .h1,
    show visible u d.context = _ from hvisible .m15,
    show visible u d.regime = _ from hvisible .h4, h.spec]
  rfl

theorem construct_view_congr {f g : MarketSnapshot.Fields} (h : f = g)
    (hf : ∀ i, (f.history i).IsChain (Follows i)) (hg : ∀ i, (g.history i).IsChain (Follows i)) :
    construct (_postInit f) (fun h => (⟨f, h, hf⟩ : CrisisLabMarketSnapshot)) =
      construct (_postInit g) fun h => ⟨g, h, hg⟩ := by
  subst h
  rfl

theorem SamePast.snapshotAt_eq (h : SamePast t d d') (hu : u ≤ t) : snapshotAt d u = snapshotAt d' u := by
  unfold snapshotAt
  rw [h.spec, construct_view_congr (h.suffixes_eq hu)]

theorem validateGapAwareCandles_of_sorted {symbol : Symbol} {interval : Interval}
    {previous : Option ℤ} {candles : List Candle}
    (hidentity : ∀ c ∈ candles, c.symbol = symbol ∧ c.interval = interval ∧ c.isClosed = true)
    (hclosed : ∀ c ∈ candles, c.closeTimeMs < t)
    (hsorted : candles.Pairwise fun a b => a.openTimeMs < b.openTimeMs)
    (hprevious : ∀ p ∈ previous, p % interval.milliseconds = 0 ∧ ∀ c ∈ candles, p < c.openTimeMs) :
    _validateGapAwareCandles symbol interval t previous candles = .ok () := by
  induction candles generalizing previous with
  | nil => rfl
  | cons candle candles ih =>
    obtain ⟨hsymbol, hinterval, hisClosed⟩ := hidentity candle mem_cons_self
    have haligned := candle.facts.2.1
    rw [hinterval] at haligned
    rw [pairwise_cons] at hsorted
    unfold _validateGapAwareCandles
    simp only [raiseIf_bind_eq_ok]
    refine ⟨by simp [hsymbol, hinterval, hisClosed],
      not_le.mpr (hclosed candle mem_cons_self), not_not.mpr haligned, ?_, ?_⟩
    · cases previous with
      | none => simp
      | some p =>
        obtain ⟨hp, hlater⟩ := hprevious p rfl
        have hlt := hlater candle mem_cons_self
        have hdelta : (candle.openTimeMs - p) % interval.milliseconds = 0 :=
          Int.emod_eq_zero_of_dvd
            (dvd_sub (Int.dvd_of_emod_eq_zero haligned) (Int.dvd_of_emod_eq_zero hp))
        simp only [Option.any_some, hdelta, ne_eq, not_true_eq_false, or_false, decide_eq_true_eq]
        omega
    · apply ih (fun c hc => hidentity c (mem_cons_of_mem _ hc))
        (fun c hc => hclosed c (mem_cons_of_mem _ hc)) hsorted.2
      intro p hp
      cases hp
      exact ⟨haligned, hsorted.1⟩

theorem le_expectedLastOpen {candle : Candle} (h : candle.closeTimeMs < t) :
    candle.openTimeMs ≤ expectedLastOpen candle.interval t := by
  obtain ⟨-, haligned, hclose, -⟩ := candle.facts
  have hpos := candle.interval.milliseconds_pos
  obtain ⟨k, hk⟩ := Int.dvd_of_emod_eq_zero haligned
  have hnext : (k + 1) * candle.interval.milliseconds ≤ t := by
    rw [add_mul, one_mul, mul_comm, ← hk]
    omega
  have hfloor := mul_le_mul_of_nonneg_right ((Int.le_ediv_iff_mul_le hpos).mpr hnext) hpos.le
  unfold expectedLastOpen
  rw [add_mul, one_mul, mul_comm, ← hk] at hfloor
  omega

namespace Admitted

theorem suffix (h : Admitted d) (i : Interval) :
    (∀ c ∈ visibleContiguousSuffix t (d.history i) i,
      (c.symbol = d.spec.symbol ∧ c.interval = i ∧ c.isClosed = true) ∧ c.closeTimeMs < t) ∧
    (visibleContiguousSuffix t (d.history i) i).Pairwise fun a b => a.openTimeMs < b.openTimeMs := by
  have hsublist : (visibleContiguousSuffix t (d.history i) i).Sublist (visible t (d.history i)) :=
    (Series.lastRun_suffix _).sublist
  constructor
  · intro c hc
    have hvisible := mem_filter.mp (hsublist.subset hc)
    exact ⟨h.identity i c hvisible.1, by simpa using hvisible.2⟩
  · exact (h.sorted i).sublist (hsublist.trans filter_sublist)

/-- A view can be built as soon as every series shows something. -/
theorem postInit_iff (h : Admitted d) (haligned : t % primaryInterval.milliseconds = 0) :
    _postInit (suffixes d t) = .ok () ↔ ∀ i, visible t (d.history i) ≠ [] := by
  rw [gapAware_postInit_iff]
  constructor
  · intro hvalid i hnil
    have hhistory := hvalid.2 i
    rw [suffixes_history, visibleContiguousSuffix, hnil] at hhistory
    unfold _validateGapAwareHistory at hhistory
    rw [raiseIf_bind_eq_ok] at hhistory
    exact hhistory.1 rfl
  · intro hne
    constructor
    · obtain ⟨c, hc⟩ := exists_mem_of_ne_nil _ (hne .h1)
      have hclose := (mem_filter.mp hc).2
      rw [decide_eq_true_eq] at hclose
      obtain ⟨hopen, -, htime, -⟩ := c.facts
      have hpos := c.interval.milliseconds_pos
      exact ⟨by change 0 < t; omega, haligned⟩
    · intro i
      rw [suffixes_history]
      obtain ⟨hmembers, hsorted⟩ := h.suffix i
      unfold _validateGapAwareHistory
      rw [raiseIf_bind_eq_ok, unit_bind_eq_ok, raiseIf_eq_ok]
      refine ⟨?_, ?_, ?_⟩
      · rw [List.isEmpty_iff, visibleContiguousSuffix, Series.lastRun_eq_nil_iff]
        exact hne i
      · exact validateGapAwareCandles_of_sorted (fun c hc => (hmembers c hc).1)
          (fun c hc => (hmembers c hc).2) hsorted nofun
      · cases hlast : (visibleContiguousSuffix t (d.history i) i).getLast? with
        | none => simp
        | some last =>
          obtain ⟨⟨-, hinterval, -⟩, hclose⟩ := hmembers last (mem_of_getLast? hlast)
          have hle := le_expectedLastOpen hclose
          rw [hinterval] at hle
          intro hbeyond
          rw [Option.any_some, decide_eq_true_eq] at hbeyond
          exact hle.not_gt hbeyond

theorem visible_mono (hu : u ≤ t) {candles : List Candle} (h : visible u candles ≠ []) :
    visible t candles ≠ [] := by
  intro hnil
  apply h
  rw [← visible_visible hu, hnil]
  rfl

theorem events_ok (h : Admitted d) {times : List ℤ}
    (htimes : ∀ t ∈ times, Hour d t ∧ ∀ i, visible t (d.history i) ≠ []) {n : ℤ} (hn : 0 ≤ n) :
    ∃ cs, _events d n times = .ok cs := by
  induction times generalizing n with
  | nil => exact ⟨[], rfl⟩
  | cons t times ih =>
    obtain ⟨ht, hne⟩ := htimes t mem_cons_self
    obtain ⟨cs, hcs⟩ := ih (fun t ht => htimes t (mem_cons_of_mem _ ht))
      (by omega : 0 ≤ n + 1)
    have hvalid := (h.postInit_iff ht.aligned).mpr hne
    obtain ⟨⟨hpos, haligned⟩, -⟩ := (gapAware_postInit_iff _).mp hvalid
    let view : CrisisLabMarketSnapshot := ⟨suffixes d t, hvalid, contiguous_suffixes d t⟩
    have hview : snapshotAt d t = .ok view := by
      unfold snapshotAt
      rw [raiseIf_bind_eq_ok, mapError_eq_ok, not_not]
      exact ⟨⟨ht.start, ht.stop⟩, construct_of_ok hvalid⟩
    have hevent : CrisisEvent.Fields.postInit ⟨n, t, t, view⟩ = .ok () := by
      unfold CrisisEvent.Fields.postInit
      rw [raiseIf_eq_ok]
      have hpositive : 0 < t := hpos
      have hhour : t % primaryInterval.milliseconds = 0 := haligned
      have htime : view.decisionTimeMs = t := rfl
      simp only [hhour, htime]
      omega
    refine ⟨⟨_, hevent⟩ :: cs, ?_⟩
    unfold _events
    rw [hview]
    change (CrisisEvent.build ⟨n, t, t, view⟩ >>= fun event =>
      _events d (n + 1) times >>= fun events => pure (event :: events)) = _
    rw [show CrisisEvent.build ⟨n, t, t, view⟩ = .ok ⟨_, hevent⟩ from construct_of_ok hevent, ok_bind,
      hcs]
    rfl

/-- The clock raises exactly when some series shows nothing at the start of the range. -/
theorem gridEvents_ok_iff (h : Admitted d) : (∃ cs, gridEvents d = .ok cs) ↔
    ∀ i, visible d.spec.startTimeMs (d.history i) ≠ [] := by
  obtain ⟨⟨hpos, hlt, hstart, hstop⟩, -⟩ := d.spec.facts
  constructor
  · intro hok
    obtain ⟨cs, hcs⟩ := hok
    obtain ⟨htimes, hviews⟩ := gridEvents_eq_ok hcs
    rw [timeRange_of_lt (Interval.milliseconds_pos _) hlt] at htimes
    cases cs with
    | nil => cases htimes
    | cons c cs =>
      have hvalid := c.snapshot.valid
      have hfirst : c.decisionTimeMs = d.spec.startTimeMs := (List.cons.inj htimes).1
      rw [(hviews c mem_cons_self).2.2, hfirst] at hvalid
      exact (h.postInit_iff hstart).mp hvalid
  · intro hne
    apply h.events_ok _ (le_refl 0)
    intro t ht
    have hhour := Hour.of_mem ht
    exact ⟨hhour, fun i => visible_mono hhour.start (hne i)⟩

end Admitted

def upTo (t : ℤ) (cs : List CrisisEvent) : List CrisisEvent := cs.filter fun c => c.decisionTimeMs ≤ t

/-- The events before a time. -/
def before (t : ℤ) (cs : List CrisisEvent) : List CrisisEvent := cs.filter fun c => c.decisionTimeMs < t

variable {cs : List CrisisEvent} {c : CrisisEvent}

theorem SamePast.upTo_events (h : SamePast t d d') {times : List ℤ} {n : ℤ} {cs' : List CrisisEvent}
    (hcs : _events d n times = .ok cs) (hcs' : _events d' n times = .ok cs') :
    upTo t cs = upTo t cs' := by
  induction times generalizing n cs cs' with
  | nil =>
    cases hcs
    cases hcs'
    rfl
  | cons u times ih =>
    unfold _events at hcs hcs'
    obtain ⟨view, hview, hcs⟩ := bind_eq_ok.mp hcs
    obtain ⟨event, hevent, hcs⟩ := bind_eq_ok.mp hcs
    obtain ⟨events, hevents, hcs⟩ := bind_eq_ok.mp hcs
    obtain ⟨view', hview', hcs'⟩ := bind_eq_ok.mp hcs'
    obtain ⟨event', hevent', hcs'⟩ := bind_eq_ok.mp hcs'
    obtain ⟨events', hevents', hcs'⟩ := bind_eq_ok.mp hcs'
    cases hcs
    cases hcs'
    have hrest := ih hevents hevents'
    by_cases hu : u ≤ t
    · rw [h.snapshotAt_eq hu, hview'] at hview
      cases hview
      rw [hevent'] at hevent
      cases hevent
      unfold upTo at hrest ⊢
      rw [filter_cons, filter_cons, hrest]
    · have htime : event.decisionTimeMs = u := by
        obtain ⟨_, rfl⟩ := construct_eq_ok.mp hevent
        rfl
      have htime' : event'.decisionTimeMs = u := by
        obtain ⟨_, rfl⟩ := construct_eq_ok.mp hevent'
        rfl
      unfold upTo at hrest ⊢
      rw [filter_cons_of_neg (by simpa [htime] using hu),
        filter_cons_of_neg (by simpa [htime'] using hu), hrest]

theorem Admitted.close_lt (h : Admitted d) (ht : t % 3600000 = 0) {candle : Candle}
    (hmem : candle ∈ d.primary) (hlt : candle.openTimeMs < t) : candle.closeTimeMs < t := by
  obtain ⟨-, hinterval, -⟩ := h.identity .h1 candle hmem
  obtain ⟨-, haligned, hclose, -⟩ := candle.facts
  have hhour : Interval.milliseconds .h1 = 3600000 := rfl
  rw [hinterval, hhour] at haligned hclose
  omega

theorem find?_filter_of_imp {α : Type} {p q : α → Bool} {l : List α}
    (h : ∀ a ∈ l, q a = true → p a = true) : (l.filter p).find? q = l.find? q := by
  induction l with
  | nil => rfl
  | cons a l ih =>
    rw [forall_mem_cons] at h
    have hrest := ih h.2
    cases hp : p a with
    | true => rw [filter_cons_of_pos hp, find?_cons, find?_cons, hrest]
    | false =>
      have hq : q a = false := by
        cases hq : q a with
        | true => rw [h.1 hq] at hp; cases hp
        | false => rfl
      rw [filter_cons_of_neg (by simp [hp]), find?_cons, hq, hrest]

theorem Admitted.find?_visible (h : Admitted d) (ht : t % 3600000 = 0) (hu : u < t) :
    (visible t d.primary).find? (fun c => c.openTimeMs = u) =
      d.primary.find? fun c => c.openTimeMs = u := by
  apply find?_filter_of_imp
  intro c hc hopen
  rw [decide_eq_true_eq] at hopen ⊢
  exact h.close_lt ht hc (by omega)

theorem hasFill_iff : HasFill d c ↔
    (d.primary.find? fun x => x.openTimeMs = c.eligibleFillOpenTimeMs).isSome := by
  unfold HasFill
  rw [find?_isSome]
  simp

theorem SamePast.hasFill_iff (hd : Admitted d) (hd' : Admitted d') (h : SamePast t d d')
    (ht : t % 3600000 = 0) (hle : c.eligibleFillOpenTimeMs ≤ t) :
    HasFill d c ↔ HasFill d' c := by
  rcases hle.lt_or_eq with hlt | heq
  · rw [Crisis.hasFill_iff, Crisis.hasFill_iff, ← hd.find?_visible ht hlt,
      ← hd'.find?_visible ht hlt, show visible t d.primary = _ from h.closed .h1]
    rfl
  · unfold HasFill
    rw [heq]
    exact h.fill

theorem SamePast.fillCandle (hd : Admitted d) (hd' : Admitted d') (h : SamePast t d d')
    (ht : t % 3600000 = 0) (hlt : c.eligibleFillOpenTimeMs < t) :
    _fillCandle d c = _fillCandle d' c := by
  unfold _fillCandle
  rw [← hd.find?_visible ht hlt, ← hd'.find?_visible ht hlt,
    show visible t d.primary = _ from h.closed .h1]
  rfl

theorem SamePast.steps (hd : Admitted d) (hd' : Admitted d') (h : SamePast t d d')
    (ht : t % 3600000 = 0) (hlt : ∀ c ∈ cs, c.eligibleFillOpenTimeMs < t)
    (s : Replay) : Replay.steps d cs s = Replay.steps d' cs s := by
  unfold Replay.steps
  induction cs generalizing s with
  | nil => rfl
  | cons c cs ih =>
    rw [forall_mem_cons] at hlt
    have hstep : s.step d c = s.step d' c := by
      unfold Replay.step
      rw [h.fillCandle hd hd' ht hlt.1]
    rw [foldlM_cons, foldlM_cons, hstep]
    congr 1
    funext next
    exact ih hlt.2 next

/-- The decision at an event: the check of its candle, and what is decided. -/
def decision (d : AcceptedBacktestDataset) (s : Replay) (c : CrisisEvent) :
    Except CrisisRunError Decided := do
  let _ ← _fillCandle d c
  s.decide c

theorem Admitted.decision_eq (h : Admitted d) (s : Replay) (c : CrisisEvent) : decision d s c =
    if HasFill d c then do
      raiseIf (∃ x ∈ c.snapshot.primary ++ c.snapshot.context ++ c.snapshot.regime,
          c.decisionTimeMs ≤ x.closeTimeMs) (.replay "historical decision contains future data")
      s.decide c
    else .error (.replay "historical next-open candle is missing or not closed") := by
  unfold decision _fillCandle
  cases hfind : d.primary.find? fun x => x.openTimeMs = c.eligibleFillOpenTimeMs with
  | none =>
    have hno : ¬ HasFill d c := by
      rw [hasFill_iff, hfind]
      exact nofun
    rw [if_neg hno]
    rfl
  | some candle =>
    have hyes : HasFill d c := by
      rw [hasFill_iff, hfind]
      rfl
    obtain ⟨-, -, hisClosed⟩ := h.identity .h1 candle (mem_of_find?_eq_some hfind)
    rw [if_pos hyes]
    dsimp only
    rw [raiseIf_neg (not_not.mpr hisClosed), ok_bind, bind_assoc]
    rfl

theorem SamePast.decision_eq (hd : Admitted d) (hd' : Admitted d') (h : SamePast t d d')
    (ht : t % 3600000 = 0) (hle : c.eligibleFillOpenTimeMs ≤ t) (s : Replay) :
    decision d s c = decision d' s c := by
  rw [hd.decision_eq, hd'.decision_eq]
  exact if_congr (h.hasFill_iff hd hd' ht hle) rfl rfl

/-- A step over a stale view: nothing is evaluated, the intent is to hold, and what is filled is the
bracket's. -/
structure Rested (s s' : Replay) (c : CrisisEvent) : Prop where
  row : ∃ row, s'.trace = s.trace ++ [row] ∧ row.decisionTimeMs = c.decisionTimeMs ∧
    row.snapshotFresh = false ∧ row.strategyAction = "NOT_EVALUATED" ∧
    row.effectiveIntent = .hold ∧ row.entryVeto = none
  fills : ∃ fills : List CostedFill, s'.fills = s.fills ++ fills.map PaperRunner._fillRecord ∧
    PaperFillEngine.Protected s.session.engine s'.session.engine (fills.map fun f => f.reference)

theorem decide_stale {s : Replay} {decided : Decided}
    (h : s.decide c = .ok decided) (hstale : ¬ _snapshotIsFresh c.snapshot.toFields) :
    decided.evaluated = none ∧ decided.veto = none ∧ decided.intent.action = .hold := by
  unfold Replay.decide at h
  obtain ⟨observation, -, h⟩ := bind_eq_ok.mp h
  obtain ⟨observed, -, h⟩ := bind_eq_ok.mp h
  rw [dif_neg hstale] at h
  obtain ⟨intent, hintent, h⟩ := bind_eq_ok.mp h
  cases h
  obtain ⟨_, rfl⟩ := construct_eq_ok.mp (mapError_eq_ok.mp hintent)
  exact ⟨rfl, rfl, rfl⟩

theorem rested_of_step {s s' : Replay} (h : s.step d c = .ok s')
    (hstale : ¬ _snapshotIsFresh c.snapshot.toFields) : Rested s s' c := by
  unfold Replay.step at h
  obtain ⟨candle, -, h⟩ := bind_eq_ok.mp h
  obtain ⟨decided, hdecided, h⟩ := bind_eq_ok.mp h
  obtain ⟨hevaluated, hveto, hintent⟩ := decide_stale hdecided hstale
  unfold Replay.settle at h
  obtain ⟨filled, hfilled, h⟩ := bind_eq_ok.mp h
  obtain ⟨active, -, h⟩ := bind_eq_ok.mp h
  obtain ⟨post, -, h⟩ := bind_eq_ok.mp h
  cases h
  constructor
  · refine ⟨_, rfl, rfl, decide_eq_false hstale, ?_, hintent, hveto⟩
    unfold _row
    rw [hevaluated]
  · refine ⟨filled.1, rfl, ?_⟩
    exact PaperFillEngine.call_processAt_hold hintent
      (PaperSession.acceptAt_eq_ok (mapError_eq_ok.mp hfilled))

/-- The longest run of closed candles that ends with the last of them. -/
structure LongestSuffix (interval : Interval) (closed history : List Candle) : Prop where
  suffix : history <:+ closed
  contiguous : history.IsChain (Follows interval)
  longest : ∀ candles, candles <:+ closed → candles.IsChain (Follows interval) → candles <:+ history

theorem longestSuffix (d : AcceptedBacktestDataset) (t : ℤ) (i : Interval) :
    LongestSuffix i (visible t (d.history i)) ((suffixes d t).history i) where
  suffix := by
    rw [suffixes_history]
    exact Series.lastRun_suffix _
  contiguous := contiguous_suffixes d t i
  longest := by
    intro candles hsuffix hchain
    rw [suffixes_history]
    exact Series.suffix_lastRun hsuffix hchain

/-- The events of a grid that are not skipped. -/
def legal (d : AcceptedBacktestDataset) (cs : List CrisisEvent) : List CrisisEvent :=
  cs.filter fun c => HasFill d c

/-- Two grids of events whose replays agree up to the decision at a time. -/
structure AgreeUpTo (t : ℤ) (d d' : AcceptedBacktestDataset) (cs cs' : List CrisisEvent) : Prop where
  events : upTo t (legal d cs) = upTo t (legal d' cs')
  runs : ∀ k, Replay.steps d ((before t (legal d cs)).take k) (.init d.spec) =
    Replay.steps d' ((before t (legal d' cs')).take k) (.init d'.spec)
  decisions : ∀ c ∈ upTo t (legal d cs), ∀ s, decision d s c = decision d' s c

theorem before_upTo (t : ℤ) (cs : List CrisisEvent) : before t (upTo t cs) = before t cs := by
  unfold before upTo
  rw [filter_filter]
  apply filter_congr
  intro c _
  rw [← Bool.decide_and, decide_eq_decide]
  omega

theorem SamePast.agreeUpTo (hd : Admitted d) (hd' : Admitted d') (h : SamePast t d d')
    (ht : t % 3600000 = 0) {cs' : List CrisisEvent} (hcs : gridEvents d = .ok cs)
    (hcs' : gridEvents d' = .ok cs') : AgreeUpTo t d d' cs cs' := by
  have hgrid : upTo t cs = upTo t cs' := by
    unfold gridEvents at hcs hcs'
    rw [← h.spec] at hcs'
    exact h.upTo_events hcs hcs'
  have hfill : ∀ c ∈ cs, c.eligibleFillOpenTimeMs = c.decisionTimeMs :=
    fun c hc => ((gridEvents_eq_ok hcs).2 c hc).2.1
  have hevents : upTo t (legal d cs) = upTo t (legal d' cs') := by
    unfold upTo at hgrid ⊢
    unfold legal
    rw [filter_comm, filter_comm _ _ cs', ← hgrid]
    apply filter_congr
    intro c hc
    obtain ⟨hmem, hle⟩ := mem_filter.mp hc
    rw [decide_eq_true_eq] at hle
    rw [decide_eq_decide]
    exact h.hasFill_iff hd hd' ht (by rw [hfill c hmem]; exact hle)
  have hmem : ∀ c ∈ upTo t (legal d cs), c ∈ cs ∧ c.decisionTimeMs ≤ t := by
    intro c hc
    obtain ⟨hlegal, hle⟩ := mem_filter.mp hc
    exact ⟨(mem_filter.mp hlegal).1, by simpa using hle⟩
  refine ⟨hevents, ?_, ?_⟩
  · intro k
    rw [← before_upTo, ← before_upTo t (legal d' cs'), ← hevents, ← h.spec]
    apply h.steps hd hd' ht
    intro c hc
    obtain ⟨hupTo, hlt⟩ := mem_filter.mp (mem_of_mem_take hc)
    rw [hfill c (hmem c hupTo).1]
    simpa using hlt
  · intro c hc s
    obtain ⟨hcs, hle⟩ := hmem c hc
    exact h.decision_eq hd hd' ht (by rw [hfill c hcs]; exact hle) s

/-- **Point-in-time safety across gaps.** Admitted datasets with the same past have clocks that raise
together and replays that agree up to the decision; a view is the longest run of what is closed; and
over a stale view nothing is filled but the bracket. -/
theorem gap_aware_point_in_time (hd : Admitted d) (hd' : Admitted d') (ht : Hour d t)
    (h : SamePast t d d') :
    Alike (AgreeUpTo t d d') (gridEvents d) (gridEvents d') ∧
    (∀ cs, gridEvents d = .ok cs → ∀ c ∈ cs, ∀ i,
      LongestSuffix i (visible c.decisionTimeMs (d.history i)) (c.snapshot.history i)) ∧
    ∀ s s' c, Replay.step d s c = .ok s' → ¬ _snapshotIsFresh c.snapshot.toFields → Rested s s' c := by
  refine ⟨?_, ?_, fun _ _ _ hstep hstale => rested_of_step hstep hstale⟩
  · have hiff : (∃ cs, gridEvents d = .ok cs) ↔ ∃ cs, gridEvents d' = .ok cs := by
      rw [hd.gridEvents_ok_iff, hd'.gridEvents_ok_iff, ← h.spec]
      apply forall_congr'
      intro i
      rw [h.visible_eq ht.start]
    cases hcs : gridEvents d with
    | ok cs =>
      obtain ⟨cs', hcs'⟩ := hiff.mp ⟨cs, hcs⟩
      rw [hcs']
      exact .ok (h.agreeUpTo hd hd' ht.aligned hcs hcs')
    | error e =>
      cases hcs' : gridEvents d' with
      | ok cs' =>
        obtain ⟨cs, hok⟩ := hiff.mpr ⟨cs', hcs'⟩
        rw [hcs] at hok
        cases hok
      | error e' => exact .error e e'
  · intro cs hcs c hc i
    rw [((gridEvents_eq_ok hcs).2 c hc).2.2]
    exact longestSuffix d c.decisionTimeMs i

/-- The candles of one price that are kept. -/
def keptDataset (kept : ℤ → Bool) : AcceptedBacktestDataset where
  spec := BacktestClock.sampleSpec
  manifestGeneratedAtMs := 2606400000
  primary := (BacktestClock.sampleCandles .h1).filter fun c => kept c.openTimeMs
  context := (BacktestClock.sampleCandles .m15).filter fun c => kept c.openTimeMs
  regime := (BacktestClock.sampleCandles .h4).filter fun c => kept c.openTimeMs

theorem history_keptDataset (kept : ℤ → Bool) (i : Interval) : (keptDataset kept).history i =
    (BacktestClock.sampleCandles i).filter fun c => kept c.openTimeMs := by
  unfold AcceptedBacktestDataset.history keptDataset
  cases i <;> dsimp only

theorem admitted_keptDataset (kept : ℤ → Bool) : Admitted (keptDataset kept) where
  identity := by
    intro i c hc
    rw [history_keptDataset] at hc
    exact (BacktestClock.covers_sampleCandles i).identity c (mem_filter.mp hc).1
  sorted := by
    intro i
    rw [history_keptDataset]
    have hsorted := @pairwise_timeRange 14400000 2606400000 _ i.milliseconds_pos
    rw [← (BacktestClock.covers_sampleCandles i).times, pairwise_map] at hsorted
    exact hsorted.sublist filter_sublist

theorem samePast_keptDataset (kept : ℤ → Bool) (t : ℤ) :
    SamePast t (keptDataset kept) (keptDataset fun u => kept u && u ≤ t) where
  spec := rfl
  closed := by
    intro i
    rw [history_keptDataset, history_keptDataset]
    unfold visible
    rw [filter_filter, filter_filter]
    apply filter_congr
    intro c _
    obtain ⟨-, -, hclose, -⟩ := c.facts
    have hpos := c.interval.milliseconds_pos
    by_cases hlt : c.closeTimeMs < t
    · have hle : c.openTimeMs ≤ t := by omega
      simp [hlt, hle]
    · simp [hlt]
  fill := by
    apply exists_congr
    intro c
    unfold keptDataset
    rw [mem_filter, mem_filter]
    constructor
    · intro h
      obtain ⟨⟨hmem, hkept⟩, hopen⟩ := h
      rw [Bool.and_eq_true, decide_eq_true_eq]
      exact ⟨⟨hmem, hkept, hopen.le⟩, hopen⟩
    · intro h
      obtain ⟨⟨hmem, hkept⟩, hopen⟩ := h
      rw [Bool.and_eq_true] at hkept
      exact ⟨⟨hmem, hkept.1⟩, hopen⟩

theorem hour_keptDataset (kept : ℤ → Bool) : Hour (keptDataset kept) 2523600000 where
  start := by
    change (2520000000 : ℤ) ≤ 2523600000
    decide
  stop := by
    change (2523600000 : ℤ) < 2606400000
    decide
  aligned := by decide

def missingQuarter (u : ℤ) : Bool := u != 2522700000

/-- The hour after it, with and without what follows. -/
theorem gap_aware_point_in_time_sample :
    Alike (AgreeUpTo 2523600000 (keptDataset missingQuarter)
        (keptDataset fun u => missingQuarter u && u ≤ 2523600000))
      (gridEvents (keptDataset missingQuarter))
      (gridEvents (keptDataset fun u => missingQuarter u && u ≤ 2523600000)) :=
  (gap_aware_point_in_time (admitted_keptDataset _) (admitted_keptDataset _)
    (hour_keptDataset missingQuarter) (samePast_keptDataset missingQuarter _)).1

end Crisis

end TradingLab
