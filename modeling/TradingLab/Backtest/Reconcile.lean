import TradingLab.Backtest.Artifacts
import TradingLab.Backtest.Exactness
import TradingLab.Backtest.Lockstep

/-!
# Reconciliation of a run

The same totals are computed three times: from the pairs of fills, by the ledger
as it goes, and from the two ends of the equity curve. A run within the range of
its specification has at most two fills an hour and an opening one, so that no
computation rounds and the totals agree.
-/

namespace TradingLab

open Decimal Accounting List

namespace Artifact

def tripFills (trips : List (CostedFill × CostedFill)) : List CostedFill :=
  trips.flatMap fun t => [t.1, t.2]

/-- An entry with the exit of the same quantity. -/
structure Trip (t : CostedFill × CostedFill) : Prop where
  entry : t.1.reference.action = .enterLong
  exit : t.2.reference.action = .exitLong
  quantity : t.1.reference.quantity = t.2.reference.quantity

theorem tripFills_cons (t : CostedFill × CostedFill) (trips : List (CostedFill × CostedFill)) :
    tripFills (t :: trips) = t.1 :: t.2 :: tripFills trips := rfl

theorem sum_tripFills (g : CostedFill → ℚ) (trips : List (CostedFill × CostedFill)) :
    ((tripFills trips).map g).sum = (trips.map fun t => g t.1 + g t.2).sum := by
  induction trips with
  | nil => rfl
  | cons t trips ih =>
    rw [tripFills_cons, map_cons, map_cons, sum_cons, sum_cons, ih,
      map_cons, sum_cons, add_assoc]

theorem countP_tripFills {trips : List (CostedFill × CostedFill)} (h : ∀ t ∈ trips, Trip t) :
    (tripFills trips).countP PortfolioLedger.isExit = trips.length := by
  induction trips with
  | nil => rfl
  | cons t trips ih =>
    have ht := h t mem_cons_self
    have hrest := ih fun u hu => h u (mem_cons_of_mem t hu)
    rw [tripFills_cons, countP_cons, countP_cons, hrest]
    simp [PortfolioLedger.isExit, ht.entry, ht.exit]

/-- Fills that take turns are paired without a remainder. -/
theorem pair_eq_ok {symbol : Symbol} {fills : List CostedFill} {entry : Option CostedFill}
    (halt : PaperFillEngine.Alternates (entry.map fun e => e.reference.quantity)
      (fills.map fun f => f.reference) none)
    (hentry : ∀ e ∈ entry, e.reference.action = .enterLong)
    (hsymbol : ∀ f ∈ fills, f.reference.symbol = symbol)
    (hsorted : (entry.toList ++ fills).Pairwise fun f g =>
      f.reference.fillTimeMs ≤ g.reference.fillTimeMs) :
    ∃ trips, entry.toList ++ fills = tripFills trips ∧ (∀ t ∈ trips, Trip t) ∧
      _pair symbol entry fills = .ok (trips.map fun t => .of t.1 t.2, none) := by
  induction fills generalizing entry with
  | nil =>
    cases entry with
    | none => exact ⟨[], rfl, by simp, rfl⟩
    | some e =>
      generalize hq : (some e).map (fun e => e.reference.quantity) = q at halt
      cases halt
      cases hq
  | cons fill fills ih =>
    have hfill := hsymbol fill mem_cons_self
    have hrest : ∀ f ∈ fills, f.reference.symbol = symbol :=
      fun f hf => hsymbol f (mem_cons_of_mem fill hf)
    rw [map_cons] at halt
    cases entry with
    | none =>
      cases halt with
      | enter ha halt =>
        obtain ⟨trips, htrips, hall, hpair⟩ := @ih (some fill) halt
          (fun e he => by rw [← Option.mem_some_iff.mp he]; exact ha) hrest hsorted
        refine ⟨trips, htrips, hall, ?_⟩
        rw [_pair, raiseIf_neg (not_not.mpr hfill), ok_bind, if_pos ha, raiseIf_neg (by simp),
          ok_bind, hpair]
    | some e =>
      have he := hentry e rfl
      generalize hq : (some e).map (fun e => e.reference.quantity) = q at halt
      cases halt with
      | enter ha halt => cases hq
      | exit ha halt =>
        have hquantity : e.reference.quantity = fill.reference.quantity := Option.some.inj hq
        have hne : ¬ fill.reference.action = .enterLong := by simp [ha]
        have hle : e.reference.fillTimeMs ≤ fill.reference.fillTimeMs :=
          (pairwise_cons.mp hsorted).1 fill mem_cons_self
        obtain ⟨trips, htrips, hall, hpair⟩ := @ih none halt (fun _ h => by cases h) hrest
          (pairwise_cons.mp (pairwise_cons.mp hsorted).2).2
        refine ⟨(e, fill) :: trips, ?_, ?_, ?_⟩
        · rw [tripFills_cons, ← htrips]
          rfl
        · intro t ht
          rcases mem_cons.mp ht with rfl | ht
          · exact ⟨he, ha, hquantity⟩
          · exact hall t ht
        · rw [_pair, raiseIf_neg (not_not.mpr hfill), ok_bind, if_neg hne]
          rw [raiseIf_neg (by rw [not_or, not_not, not_lt]; exact ⟨hquantity, hle⟩), ok_bind, hpair]
          rfl

def tripLimit : ℕ := 1000000

/-- Adding up the texts of trades is adding up the fills. -/
theorem toRat_total {field : Trade → String} {g : CostedFill → ℚ}
    {trips : List (CostedFill × CostedFill)}
    (h : ∀ t ∈ trips, (ofText (field (.of t.1 t.2))).toRat = g t.1 + g t.2 ∧
      Fits 168 81 (g t.1 + g t.2)) (hlen : trips.length ≤ tripLimit) :
    (_total field (trips.map fun t => .of t.1 t.2)).toRat = ((tripFills trips).map g).sum := by
  have hall : ∀ d ∈ trips.map (fun t => ofText (field (.of t.1 t.2))), Fits 168 81 d.toRat := by
    intro d hd
    obtain ⟨t, ht, rfl⟩ := mem_map.mp hd
    rw [(h t ht).1]
    exact (h t ht).2
  have hlength : ((trips.map fun t => ofText (field (.of t.1 t.2))).length : ℚ) * 10 ^ 81 <
      10 ^ 88 := by
    have hn : (trips.length : ℚ) ≤ 1000000 := by exact_mod_cast hlen
    rw [length_map]
    nlinarith
  rw [_total, map_map, sum_tripFills]
  have hsum := toRat_sum (by decide : 0 < decimalPrecision) (by decide : 168 + 88 ≤ decimalPrecision)
    (fun d hd => (hall d hd).onGrid) (fun d hd => (hall d hd).lt.le) (by positivity) hlength
  refine hsum.trans ?_
  rw [map_map]
  congr 1
  exact map_congr_left fun t ht => (h t ht).1

section Trip
variable {spec : BacktestSpec} {t : CostedFill × CostedFill}

theorem fits_pair {p q : ℚ} (hp : OnGrid 168 p) (hq : OnGrid 168 q)
    (bp : |p| ≤ 121 / 100 * 10 ^ 80) (bq : |q| ≤ 121 / 100 * 10 ^ 80) : Fits 168 81 (p + q) := by
  refine ⟨hp.add hq, ?_⟩
  calc |p + q| ≤ |p| + |q| := abs_add_le p q
    _ ≤ 121 / 100 * 10 ^ 80 + 121 / 100 * 10 ^ 80 := add_le_add bp bq
    _ < 10 ^ 81 := by norm_num

theorem toRat_fixed_add {a b : Decimal} (h : Fits 168 81 (a.toRat + b.toRat)) :
    (ofText (add decimalPrecision a b).fixed).toRat = a.toRat + b.toRat := by
  rw [toRat_ofText_fixed]
  exact toRat_add (by decide) (h.representable (by decide))

theorem netPnlQuote_of (h1 : t.1.UsesPolicy spec) (h2 : t.2.UsesPolicy spec) :
    (ofText (Trade.of t.1 t.2).netPnlQuote).toRat = t.1.cashDelta.toRat + t.2.cashDelta.toRat ∧
      Fits 168 81 (t.1.cashDelta.toRat + t.2.cashDelta.toRat) := by
  have hfits : Fits 168 81 (t.1.cashDelta.toRat + t.2.cashDelta.toRat) := by
    rw [h1.toRat.1, h2.toRat.1]
    exact fits_pair h1.onGrid.1 h2.onGrid.1 h1.abs_le.1 h2.abs_le.1
  exact ⟨toRat_fixed_add hfits, hfits⟩

theorem feeQuote_of (h1 : t.1.UsesPolicy spec) (h2 : t.2.UsesPolicy spec) :
    (ofText (Trade.of t.1 t.2).feeQuote).toRat = t.1.feeQuote.toRat + t.2.feeQuote.toRat ∧
      Fits 168 81 (t.1.feeQuote.toRat + t.2.feeQuote.toRat) := by
  have hfits : Fits 168 81 (t.1.feeQuote.toRat + t.2.feeQuote.toRat) := by
    rw [h1.toRat.2.1, h2.toRat.2.1]
    exact fits_pair h1.onGrid.2.1 h2.onGrid.2.1 h1.abs_le.2.1 h2.abs_le.2.1
  exact ⟨toRat_fixed_add hfits, hfits⟩

theorem slippageQuote_of (h1 : t.1.UsesPolicy spec) (h2 : t.2.UsesPolicy spec) :
    (ofText (Trade.of t.1 t.2).slippageQuote).toRat =
        t.1.slippageQuote.toRat + t.2.slippageQuote.toRat ∧
      Fits 168 81 (t.1.slippageQuote.toRat + t.2.slippageQuote.toRat) := by
  have hfits : Fits 168 81 (t.1.slippageQuote.toRat + t.2.slippageQuote.toRat) := by
    rw [h1.toRat.2.2.1, h2.toRat.2.2.1]
    exact fits_pair h1.onGrid.2.2 h2.onGrid.2.2 h1.abs_le.2.2 h2.abs_le.2.2
  exact ⟨toRat_fixed_add hfits, hfits⟩

/-- What a fill moves before costs. -/
def uncostedCash (f : CostedFill) : ℚ := (exactFill f.reference 0 0).cashDelta

theorem uncostedCash_eq {f : CostedFill} (h : f.UsesPolicy spec) :
    uncostedCash f = f.cashDelta.toRat + (f.feeQuote.toRat + f.slippageQuote.toRat) := by
  obtain ⟨cash, fee, slip, -⟩ := h.toRat
  rw [cash, fee, slip, uncostedCash]
  exact exactFill_zero f.reference h.rates.2.2.1

theorem uncostedCash_entry {f : CostedFill} (h : f.reference.action = .enterLong) :
    uncostedCash f = -(f.reference.quantityDecimal.toRat * f.reference.priceDecimal.toRat) := by
  simp only [uncostedCash, exactFill, slippedPrice, h, if_true]
  ring

theorem uncostedCash_exit {f : CostedFill} (h : f.reference.action = .exitLong) :
    uncostedCash f = f.reference.quantityDecimal.toRat * f.reference.priceDecimal.toRat := by
  simp only [uncostedCash, exactFill, slippedPrice, h,
    if_neg (by decide : ¬ IntentAction.exitLong = .enterLong)]
  ring

theorem grossPnlQuote_of (ht : Trip t) :
    (ofText (Trade.of t.1 t.2).grossPnlQuote).toRat = uncostedCash t.1 + uncostedCash t.2 ∧
      Fits 168 81 (uncostedCash t.1 + uncostedCash t.2) := by
  obtain ⟨hq, hentry⟩ := fits_reference t.1.reference
  obtain ⟨-, hexit⟩ := fits_reference t.2.reference
  have hmove := hexit.sub hentry
  have hgross := hmove.mul hq
  have hvalue : uncostedCash t.1 + uncostedCash t.2 =
      (t.2.reference.priceDecimal.toRat - t.1.reference.priceDecimal.toRat) *
        t.1.reference.quantityDecimal.toRat := by
    rw [uncostedCash_entry ht.entry, uncostedCash_exit ht.exit, FillReference.quantityDecimal,
      FillReference.quantityDecimal, ht.quantity]
    ring
  rw [hvalue]
  refine ⟨?_, hgross.mono (by norm_num) (by norm_num)⟩
  have hsub : (sub decimalPrecision t.2.reference.priceDecimal t.1.reference.priceDecimal).toRat =
      t.2.reference.priceDecimal.toRat - t.1.reference.priceDecimal.toRat :=
    toRat_sub (by decide) (hmove.representable (by decide))
  have hrep := hgross.representable (by decide : 40 + 40 + (41 + 40) ≤ decimalPrecision)
  rw [← hsub] at hrep ⊢
  refine (toRat_ofText_fixed _).trans ?_
  exact toRat_mul (by decide) hrep

end Trip

/-- The four sums over the trades are those over the fills. -/
theorem toRat_totals {spec : BacktestSpec} {trips : List (CostedFill × CostedFill)}
    (htrips : ∀ t ∈ trips, Trip t) (hpolicy : ∀ f ∈ tripFills trips, f.UsesPolicy spec)
    (hlen : trips.length ≤ tripLimit) :
    let trades := trips.map fun t => Trade.of t.1 t.2
    let total := fun g : CostedFill → ℚ => ((tripFills trips).map g).sum
    (_total Trade.grossPnlQuote trades).toRat = total uncostedCash ∧
      (_total Trade.netPnlQuote trades).toRat = total (fun f => f.cashDelta.toRat) ∧
      (_total Trade.feeQuote trades).toRat = total (fun f => f.feeQuote.toRat) ∧
      (_total Trade.slippageQuote trades).toRat = total (fun f => f.slippageQuote.toRat) := by
  have hpair : ∀ t ∈ trips, t.1.UsesPolicy spec ∧ t.2.UsesPolicy spec := by
    intro t ht
    constructor
    · exact hpolicy t.1 (mem_flatMap.mpr ⟨t, ht, by simp⟩)
    · exact hpolicy t.2 (mem_flatMap.mpr ⟨t, ht, by simp⟩)
  refine ⟨?_, ?_, ?_, ?_⟩
  · exact toRat_total (fun t ht => grossPnlQuote_of (htrips t ht)) hlen
  · exact @toRat_total _ (fun f => f.cashDelta.toRat) _
      (fun t ht => netPnlQuote_of (hpair t ht).1 (hpair t ht).2) hlen
  · exact @toRat_total _ (fun f => f.feeQuote.toRat) _
      (fun t ht => feeQuote_of (hpair t ht).1 (hpair t ht).2) hlen
  · exact @toRat_total _ (fun f => f.slippageQuote.toRat) _
      (fun t ht => slippageQuote_of (hpair t ht).1 (hpair t ht).2) hlen

end Artifact

namespace PaperSession

open PortfolioLedger (Exact exactFillLimit)

inductive RunError where
  | fill (e : FillModelError)
  | cost (e : CostModelError)
  | portfolio (e : PortfolioError)
  | snapshot (e : SnapshotError)
  | metrics (e : MetricsError)

/-- A call whose batch, if there is one, has to be taken. -/
def accept (p : PaperSession) (c : PaperFillEngine.Call) :
    Except RunError (List CostedFill × PaperSession) :=
  match p.submit c with
  | (.raised e, _) => .error (.fill e)
  | (.uncosted e, _) => .error (.cost e)
  | (.idle, p) => .ok ([], p)
  | (.applied fills, p) => .ok (fills, p)
  | (.refused _ e, _) => .error (.portfolio e)

/-- A point of the equity curve. -/
def sample (p : PaperSession) (timeMs : ℤ) (mark : String) : Except RunError EquityPoint := do
  let portfolio ← (p.ledger.snapshot mark).mapError .snapshot
  (EquityPoint.build ⟨timeMs, portfolio⟩).mapError .metrics

/-- The events after each of which the curve is sampled, at the given mark. -/
def sampled : List (PaperFillEngine.Call × String) → PaperSession →
    Except RunError (List CostedFill × List EquityPoint × PaperSession)
  | [], p => return ([], [], p)
  | (c, mark) :: steps, p => do
      let step ← p.accept c
      let point ← step.2.sample c.event.decisionTimeMs mark
      let rest ← sampled steps step.2
      return (step.1 ++ rest.1, point :: rest.2.1, rest.2.2)

/-- The first point, the event it stands before if there is one, and the sampled events. -/
structure Schedule where
  timeMs : ℤ
  mark : String
  opening : Option PaperFillEngine.Call
  steps : List (PaperFillEngine.Call × String)
  /-- The curve is sampled after the last event. -/
  closed : steps = [] → opening = none

/-- The event the first point stands before. -/
def acceptOpening (p : PaperSession) :
    Option PaperFillEngine.Call → Except RunError (List CostedFill × PaperSession)
  | none => .ok ([], p)
  | some c => p.accept c

/-- The fills and the curve of a run, with the session it ends in. -/
def execute (spec : BacktestSpec) (s : Schedule) :
    Except RunError (List CostedFill × List EquityPoint × PaperSession) := do
  let first ← (init spec).sample s.timeMs s.mark
  let opening ← (init spec).acceptOpening s.opening
  let rest ← sampled s.steps opening.2
  return (opening.1 ++ rest.1, first :: rest.2.1, rest.2.2)

/-- What holds during a run, of the fills so far. -/
structure Running (spec : BacktestSpec) (fs : List CostedFill) (p : PaperSession) : Prop where
  sound : p.Sound spec
  together : p.Together
  applied : p.ledger.applied = fs
  symbols : ∀ f ∈ fs, f.reference.symbol = spec.symbol
  alternates : PaperFillEngine.Alternates none (fs.map fun f => f.reference) p.engine.openQuantity
  exact : fs.length ≤ exactFillLimit → Exact spec fs p.ledger

variable {spec : BacktestSpec} {p p' : PaperSession} {fs fills : List CostedFill}
  {c : PaperFillEngine.Call}

theorem running_init (spec : BacktestSpec) : Running spec [] (init spec) where
  sound := sound_init spec
  together := together_init spec
  applied := rfl
  symbols := by simp
  alternates := .nil _
  exact _ := PortfolioLedger.exact_init spec

/-- The fills of an accepted call were booked, and are about its event. -/
theorem accept_eq_ok (hs : p.Sound spec) (h : p.accept c = .ok (fills, p')) :
    PaperFillEngine.Emits spec.symbol c.event.decisionTimeMs p.engine.openQuantity
        (fills.map fun f => f.reference) p'.engine.openQuantity ∧
      (p.submit c).2 = p' ∧ (∀ e, ∀ fs, (p.submit c).1 ≠ .refused fs e) ∧
      (PortfolioLedger._applyAll fills).call p.ledger = (.ok (), p'.ledger) := by
  rcases submit_cases hs c with ⟨e, -, he⟩ | ⟨refs, engine, -, -, hemits, hstep⟩
  · rw [accept, he] at h
    cases h
  · rcases hstep with ⟨rfl, hstep⟩ | ⟨-, hstep⟩
    · rw [accept, hstep] at h
      cases h
      rw [hstep]
      exact ⟨hemits, rfl, fun _ _ hr => (by cases hr), rfl⟩
    · have hmap : (refs.map fun r => costFill r spec).map (fun f => f.reference) = refs := by
        rw [map_map]
        exact map_id refs
      rw [book] at hstep
      rcases hcall : (PortfolioLedger.applyMany (refs.map fun r => costFill r spec)).call p.ledger
        with ⟨⟨e⟩ | ⟨⟨⟩⟩, ledger⟩
      · rw [hcall] at hstep
        rw [accept, hstep] at h
        cases h
      · rw [hcall] at hstep
        rw [accept, hstep] at h
        cases h
        rw [hstep, hmap]
        exact ⟨hemits, rfl, fun _ _ hr => (by cases hr),
          (PortfolioLedger.call_applyMany_eq_ok.mp hcall).2⟩

/-- One accepted call extends the run by its fills. -/
theorem Running.accept (h : Running spec fs p) (ha : p.accept c = .ok (fills, p')) :
    Running spec (fs ++ fills) p' := by
  obtain ⟨hemits, hp', hnot, hall⟩ := accept_eq_ok h.sound ha
  have hsound := h.sound.submit c
  rw [hp'] at hsound
  have hfollows := (submit_follows h.sound (.inl h.together) c).2
  rw [hp'] at hfollows
  have htogether : p'.Together := by
    generalize (p.submit c).1 = o at hfollows hnot
    cases o with
    | raised e =>
      rw [show p' = p from hfollows]
      exact h.together
    | uncosted e => exact hfollows.elim
    | idle => exact h.together.of_openQuantity hfollows.1 hfollows.2
    | applied fills => exact hfollows.1
    | refused fills e => exact (hnot e fills rfl).elim
  refine ⟨hsound, htogether, ?_, ?_, ?_, ?_⟩
  · exact PortfolioLedger.applyAll_induction (I := fun fs s => s.applied = fs)
      (fun fs s f hs _ => by rw [← hs]; rfl) h.applied hall
  · intro f hf
    rcases mem_append.mp hf with hf | hf
    · exact h.symbols f hf
    · exact (hemits.reference f.reference (mem_map.mpr ⟨f, hf, rfl⟩)).1
  · rw [map_append]
    exact h.alternates.append hemits.alternates
  · exact PortfolioLedger.applyAll_induction
      (I := fun fs s => fs.length ≤ exactFillLimit → Exact spec fs s)
      (fun fs s f hs hf hlen => (hs (by rw [length_append] at hlen; omega)).posted hf hlen)
      h.exact hall

theorem sample_eq_ok {timeMs : ℤ} {mark : String} {point : EquityPoint}
    (h : p.sample timeMs mark = .ok point) : point.timeMs = timeMs ∧
      ∃ price, point.portfolio.toFields = p.ledger.snapshotFields price := by
  unfold sample at h
  obtain ⟨portfolio, hportfolio, h⟩ := bind_eq_ok.mp h
  cases hsnap : p.ledger.snapshot mark with
  | error e =>
    rw [hsnap] at hportfolio
    cases hportfolio
  | ok snapshot =>
    rw [hsnap] at hportfolio
    cases hportfolio
    unfold PortfolioLedger.snapshot at hsnap
    obtain ⟨price, -, hbuild⟩ := bind_eq_ok.mp hsnap
    obtain ⟨_, rfl⟩ := construct_eq_ok.mp hbuild
    unfold EquityPoint.build at h
    cases hpoint : construct (EquityPoint.Fields.postInit ⟨timeMs, ⟨_, ‹_›⟩⟩)
        (fun h => (⟨⟨timeMs, _⟩, h⟩ : EquityPoint)) with
    | error e =>
      rw [hpoint] at h
      cases h
    | ok built =>
      rw [hpoint] at h
      cases h
      obtain ⟨_, rfl⟩ := construct_eq_ok.mp hpoint
      exact ⟨rfl, price, rfl⟩

/-- What a sampled stretch of a run leads to. -/
structure SampledTo (spec : BacktestSpec) (fs : List CostedFill)
    (steps : List (PaperFillEngine.Call × String)) (p : PaperSession) (fills : List CostedFill)
    (points : List EquityPoint) (p' : PaperSession) : Prop where
  running : Running spec (fs ++ fills) p'
  times : points.map (fun q => q.timeMs) = steps.map fun s => s.1.event.decisionTimeMs
  last : (points = [] ∧ p' = p) ∨ ∃ last ∈ points.getLast?, ∃ price,
    last.portfolio.toFields = p'.ledger.snapshotFields price
  within : ∀ f ∈ fills, f.reference.fillTimeMs ∈ steps.map fun s => s.1.event.decisionTimeMs
  few : (steps.map fun s => s.1.event.decisionTimeMs).Pairwise (· < ·) →
    ∀ start stop : ℤ, start % 3600000 = 0 → stop % 3600000 = 0 → start ≤ stop →
      (∀ f ∈ fills, start ≤ f.reference.fillTimeMs ∧ f.reference.fillTimeMs < stop) →
      3600000 * (fills.length : ℤ) ≤ 2 * (stop - start)

theorem sampled_eq_ok (steps : List (PaperFillEngine.Call × String)) {points : List EquityPoint}
    (h : Running spec fs p) (hs : sampled steps p = .ok (fills, points, p')) :
    SampledTo spec fs steps p fills points p' := by
  induction steps generalizing fs fills points p with
  | nil =>
    cases hs
    rw [← append_nil fs] at h
    exact ⟨h, rfl, .inl ⟨rfl, rfl⟩, by simp, fun _ start stop _ _ hle _ => by simp; omega⟩
  | cons step steps ih =>
    obtain ⟨c, mark⟩ := step
    rw [sampled] at hs
    obtain ⟨⟨first, mid⟩, haccept, hs⟩ := bind_eq_ok.mp hs
    obtain ⟨point, hpoint, hs⟩ := bind_eq_ok.mp hs
    obtain ⟨⟨rest, tail, final⟩, hrest, hs⟩ := bind_eq_ok.mp hs
    cases hs
    have hmid := h.accept haccept
    obtain ⟨hemits, -⟩ := accept_eq_ok h.sound haccept
    obtain ⟨htime, hprice⟩ := sample_eq_ok hpoint
    obtain ⟨hrunning, htimes, hlast, hwithin, hfew⟩ := ih hmid hrest
    have hfirst : ∀ f ∈ first, f.reference.fillTimeMs = c.event.decisionTimeMs := fun f hf =>
      (hemits.reference f.reference (mem_map.mpr ⟨f, hf, rfl⟩)).2
    have hlength : first.length ≤ 2 := by
      have := hemits.length_le.1
      rwa [length_map] at this
    rw [append_assoc] at hrunning
    refine ⟨hrunning, ?_, ?_, ?_, ?_⟩
    · rw [map_cons, map_cons, htimes, htime]
    · right
      rcases hlast with ⟨rfl, rfl⟩ | ⟨last, hlast, hprice⟩
      · exact ⟨point, rfl, hprice⟩
      · refine ⟨last, ?_, hprice⟩
        rw [getLast?_cons, Option.mem_def.mp hlast]
        rfl
    · intro f hf
      rw [map_cons]
      rcases mem_append.mp hf with hf | hf
      · rw [hfirst f hf]
        exact mem_cons_self
      · exact mem_cons_of_mem _ (hwithin f hf)
    · intro hsorted start stop hstart hstop hle hrange
      rw [map_cons, pairwise_cons] at hsorted
      have hrestRange : ∀ f ∈ rest, start ≤ f.reference.fillTimeMs ∧
          f.reference.fillTimeMs < stop := fun f hf => hrange f (mem_append_right _ hf)
      rw [length_append]
      push_cast
      rcases first.eq_nil_or_concat with hnil | ⟨_, f, hconcat⟩
      · rw [hnil]
        have := hfew hsorted.2 start stop hstart hstop hle hrestRange
        simpa using this
      · -- the later fills start an hour after this one
        have hf : f ∈ first := by simp [hconcat]
        obtain ⟨h1, h2⟩ := hrange f (mem_append_left _ hf)
        have haligned := f.reference.facts.1.2.2.2
        rw [hfirst f hf] at h1 h2 haligned
        have hlater := hfew hsorted.2 (c.event.decisionTimeMs + 3600000) stop (by omega) hstop
          (by omega) fun g hg => by
            have hg1 : c.event.decisionTimeMs < g.reference.fillTimeMs :=
              hsorted.1 _ (hwithin g hg)
            have hg2 := g.reference.facts.1.2.2.2
            have hg3 := (hrestRange g hg).2
            constructor <;> omega
        omega

theorem execute_eq_ok {s : Schedule} {points : List EquityPoint}
    (h : execute spec s = .ok (fills, points, p)) :
    ∃ first rest, points = first :: rest ∧ Running spec fills p ∧
      (∃ price, first.portfolio.toFields = (init spec).ledger.snapshotFields price) ∧
      (∃ price, (rest.getLastD first).portfolio.toFields = p.ledger.snapshotFields price) ∧
      ((rest.map fun q => q.timeMs).Pairwise (· < ·) →
        ∀ start stop : ℤ, start % 3600000 = 0 → stop % 3600000 = 0 → start ≤ stop →
          (∀ f ∈ fills, start ≤ f.reference.fillTimeMs ∧ f.reference.fillTimeMs < stop) →
          3600000 * (fills.length : ℤ) ≤ 2 * (stop - start) + 7200000) := by
  unfold execute at h
  obtain ⟨first, hfirst, h⟩ := bind_eq_ok.mp h
  obtain ⟨⟨opening, mid⟩, hopening, h⟩ := bind_eq_ok.mp h
  obtain ⟨⟨rest, tail, final⟩, hrest, h⟩ := bind_eq_ok.mp h
  cases h
  obtain ⟨-, price, hprice⟩ := sample_eq_ok hfirst
  have hmid : Running spec opening mid ∧ opening.length ≤ 2 ∧ (s.steps = [] → mid = init spec) := by
    cases ho : s.opening with
    | none =>
      rw [ho] at hopening
      cases hopening
      exact ⟨running_init spec, by simp, fun _ => rfl⟩
    | some c =>
      rw [ho] at hopening
      have hrunning := (running_init spec).accept hopening
      have hlength := (accept_eq_ok (sound_init spec) hopening).1.length_le.1
      rw [length_map] at hlength
      refine ⟨hrunning, hlength, fun hsteps => ?_⟩
      rw [s.closed hsteps] at ho
      cases ho
  obtain ⟨hrunning, htwo, hsame⟩ := hmid
  have hto := sampled_eq_ok s.steps hrunning hrest
  refine ⟨first, tail, rfl, hto.running, ⟨price, hprice⟩, ?_, ?_⟩
  · rcases hto.last with ⟨rfl, rfl⟩ | ⟨last, hlast, hprice⟩
    · have hsteps : s.steps = [] := by
        have := hto.times
        rwa [map_nil, eq_comm, map_eq_nil_iff] at this
      rw [hsame hsteps]
      exact ⟨price, hprice⟩
    · rw [getLastD_eq_getLast?, Option.mem_def.mp hlast]
      exact hprice
  · intro hsorted start stop hstart hstop hle hrange
    rw [hto.times] at hsorted
    have := hto.few hsorted start stop hstart hstop hle fun f hf =>
      hrange f (mem_append_right _ hf)
    rw [length_append]
    push_cast
    omega

def rangeFillLimit : ℕ := 300000

theorem sum_fits_range {amount : CostedFill → ℚ} (hlen : fs.length ≤ rangeFillLimit)
    (hgrid : ∀ f ∈ fs, OnGrid 168 (amount f)) (hb : ∀ f ∈ fs, |amount f| ≤ 121 / 100 * 10 ^ 80) :
    Fits 168 86 (fs.map amount).sum := by
  have hsum := PortfolioLedger.abs_sum_le (l := fs.map amount) (b := 121 / 100 * 10 ^ 80)
    (by simpa using hb)
  rw [length_map] at hsum
  have hn : (fs.length : ℚ) ≤ 300000 := by exact_mod_cast hlen
  refine ⟨OnGrid.list_sum (by simpa using hgrid), hsum.trans_lt ?_⟩
  nlinarith

theorem equity_flat (hs : p.Sound spec) {price : Decimal} (hflat : ¬ p.ledger.hasPosition) :
    (p.ledger.snapshotFields price).equityQuote.toRat = p.ledger.cash.toRat := by
  have hzero : p.ledger.liquidation price = 0 := if_neg hflat
  change (add decimalPrecision p.ledger.cash (p.ledger.liquidation price)).toRat = _
  have hrep := hs.ledger.sound.representable
  rw [hzero]
  rw [toRat_add (by decide)]
  · rw [toRat_zero, add_zero]
  · rwa [toRat_zero, add_zero]

/-- The report's totals, from the ledger the run ends in. -/
theorem metricValues_run (h : Running spec fs p) (hlen : fs.length ≤ rangeFillLimit)
    (hflat : ¬ p.ledger.hasPosition) {first final : PortfolioSnapshot}
    {rest : List PortfolioSnapshot} (hlast : rest.getLastD first = final) {price price' : Decimal}
    (hfirst : first.toFields = (init spec).ledger.snapshotFields price)
    (hfinal : final.toFields = p.ledger.snapshotFields price') :
    let v := metricValues first rest
    let total := fun g : CostedFill → ℚ => (fs.map g).sum
    v.tradeCount = fs.countP PortfolioLedger.isExit ∧
      v.grossPnlQuote.toRat = total Artifact.uncostedCash ∧
      v.netPnlQuote.toRat = total (fun f => f.cashDelta.toRat) ∧
      v.totalFeeQuote.toRat = total (fun f => f.feeQuote.toRat) ∧
      v.totalSlippageQuote.toRat = total (fun f => f.slippageQuote.toRat) := by
  have hexact := h.exact (hlen.trans (by decide))
  have hbalanced := hexact.balanced
  have hpolicy := hexact.sound.policy
  have hcash := hbalanced.cash
  have hfees := hbalanced.fees
  have hslips := hbalanced.slippage
  rw [PortfolioLedger.map_entry] at hcash hfees hslips
  have hcashFits := @sum_fits_range fs (fun f => f.cashDelta.toRat) hlen
    (fun f hf => by rw [(hpolicy f hf).toRat.1]; exact (hpolicy f hf).onGrid.1)
    (fun f hf => by rw [(hpolicy f hf).toRat.1]; exact (hpolicy f hf).abs_le.1)
  have hfeeFits := @sum_fits_range fs (fun f => f.feeQuote.toRat) hlen
    (fun f hf => by rw [(hpolicy f hf).toRat.2.1]; exact (hpolicy f hf).onGrid.2.1)
    (fun f hf => by rw [(hpolicy f hf).toRat.2.1]; exact (hpolicy f hf).abs_le.2.1)
  have hslipFits := @sum_fits_range fs (fun f => f.slippageQuote.toRat) hlen
    (fun f hf => by rw [(hpolicy f hf).toRat.2.2.1]; exact (hpolicy f hf).onGrid.2.2)
    (fun f hf => by rw [(hpolicy f hf).toRat.2.2.1]; exact (hpolicy f hf).abs_le.2.2)
  have hp : 0 < decimalPrecision := by decide
  have hfinalEquity : final.equityQuote.toRat = p.ledger.cash.toRat := by
    rw [hfinal]
    exact equity_flat h.sound hflat
  have hfirstEquity : first.equityQuote.toRat = spec.cashDecimal.toRat := by
    rw [hfirst]
    exact equity_flat (sound_init spec) ((together_init spec).flat rfl)
  have hfee : final.totalFeeQuote.toRat = (fs.map fun f => f.feeQuote.toRat).sum := by
    rw [hfinal]
    exact hfees
  have hslip : final.totalSlippageQuote.toRat = (fs.map fun f => f.slippageQuote.toRat).sum := by
    rw [hfinal]
    exact hslips
  have hgain : final.equityQuote.toRat - first.equityQuote.toRat =
      (fs.map fun f => f.cashDelta.toRat).sum := by
    rw [hfinalEquity, hfirstEquity, sub_eq_iff_eq_add']
    exact hcash
  have hnet : (sub decimalPrecision final.equityQuote first.equityQuote).toRat =
      (fs.map fun f => f.cashDelta.toRat).sum := by
    rw [← hgain]
    exact toRat_sub hp (by rw [hgain]; exact hcashFits.representable (by decide))
  have hcosts := hfeeFits.add hslipFits
  have hcost : (add decimalPrecision final.totalFeeQuote final.totalSlippageQuote).toRat =
      (fs.map fun f => f.feeQuote.toRat).sum + (fs.map fun f => f.slippageQuote.toRat).sum := by
    rw [← hfee, ← hslip]
    exact toRat_add hp (by rw [hfee, hslip]; exact hcosts.representable (by decide))
  have hall := (hcashFits.mono le_rfl (by decide : 86 ≤ 87)).add hcosts
  have huncosted : (fs.map Artifact.uncostedCash).sum = (fs.map fun f => f.cashDelta.toRat).sum +
      ((fs.map fun f => f.feeQuote.toRat).sum + (fs.map fun f => f.slippageQuote.toRat).sum) := by
    rw [← sum_map_add, ← sum_map_add]
    congr 1
    exact map_congr_left fun f hf => Artifact.uncostedCash_eq (hpolicy f hf)
  unfold metricValues
  rw [hlast]
  refine ⟨?_, ?_, hnet, hfee, hslip⟩
  · change final.closedTrades = _
    rw [hfinal]
    exact congrArg Nat.cast hexact.sound.closed
  · have hgross : (add decimalPrecision (sub decimalPrecision final.equityQuote first.equityQuote)
        (add decimalPrecision final.totalFeeQuote final.totalSlippageQuote)).toRat =
        (fs.map Artifact.uncostedCash).sum := by
      rw [huncosted, ← hnet, ← hcost]
      exact toRat_add hp (by rw [hnet, hcost]; exact hall.representable (by decide))
    exact hgross

theorem getLastD_map {α β : Type} (f : α → β) (l : List α) (a : α) :
    (l.map f).getLastD (f a) = f (l.getLastD a) := by
  rw [getLastD_eq_getLast?, getLastD_eq_getLast?, getLast?_map]
  cases l.getLast? <;> rfl

theorem times_increasing {symbol : Symbol} {first : EquityPoint} {rest : List EquityPoint}
    (h : (first :: rest).IsChain fun p q => p.Continues symbol q) :
    (rest.map fun q => q.timeMs).Pairwise (· < ·) := by
  have hchain : ((first :: rest).map fun q => q.timeMs).IsChain (· < ·) := by
    rw [isChain_map]
    exact h.imp fun p q hpq => by
      unfold EquityPoint.Continues at hpq
      exact lt_of_not_ge fun hle => hpq (.inl hle)
  have hpairwise := isChain_iff_pairwise.mp hchain
  rw [map_cons] at hpairwise
  exact (pairwise_cons.mp hpairwise).2

/-- The fills lie in the range of the specification. -/
def InRange (spec : BacktestSpec) (fills : List CostedFill) : Prop :=
  ∀ f ∈ fills, spec.startTimeMs ≤ f.reference.fillTimeMs ∧ f.reference.fillTimeMs < spec.endTimeMs

theorem candles_le (spec : BacktestSpec) :
    spec.endTimeMs - spec.startTimeMs ≤ 100000 * 3600000 := by
  have h := spec.valid
  have hour : primaryInterval.milliseconds = 3600000 := rfl
  obtain ⟨⟨-, -, h1, h2⟩, -⟩ := spec.facts
  unfold BacktestSpec.Fields.postInit at h
  dsimp only at h
  rw [raiseIf_bind_eq_ok, hour, maxPrimaryCandles] at h
  omega

/-- The trades of a run within its range add up to the totals of its report. -/
theorem trades_of_execute {s : Schedule} {points : List EquityPoint} {report : PerformanceReport}
    (h : execute spec s = .ok (fills, points, p)) (hreport : calculateMetrics points = .ok report)
    (hrange : InRange spec fills) : ∃ trades,
      Artifact._trades spec.symbol fills report = .ok trades ∧ Artifact.Reconciles trades report := by
  obtain ⟨first, rest, rfl, hrunning, ⟨price, hfirst⟩, ⟨price', hfinal⟩, hfew⟩ := execute_eq_ok h
  obtain ⟨values, hvalues, hfields⟩ := calculateMetrics_eq_ok.mp hreport
  obtain ⟨_, _, hpoints, -, hchain, hflat, rfl⟩ := _calculate_eq_ok.mp hvalues
  cases hpoints
  obtain ⟨⟨-, hle, h1, h2⟩, -⟩ := spec.facts
  have hcount := hfew (times_increasing hchain) spec.startTimeMs spec.endTimeMs h1 h2 hle.le hrange
  have hcandles := candles_le spec
  have hlen : fills.length ≤ rangeFillLimit := by
    unfold rangeFillLimit
    omega
  have hnone : ¬ p.ledger.hasPosition := by
    intro hpos
    rw [PortfolioLedger.hasPosition, lt_def, toRat_zero] at hpos
    rw [hfinal, equiv_def, toRat_zero] at hflat
    exact hpos.ne' hflat
  obtain ⟨hcountTrades, hgross, hnet, hfee, hslip⟩ := metricValues_run hrunning hlen hnone
    (getLastD_map (fun q => q.portfolio) rest first) hfirst hfinal
  have hopen : p.engine.openQuantity = none := by
    rw [PaperFillEngine.openQuantity_eq_none, hrunning.together.agree]
    exact hnone
  have halternates := hrunning.alternates
  rw [hopen] at halternates
  have hsorted := hrunning.sound.ledger.sorted
  rw [hrunning.applied] at hsorted
  obtain ⟨trips, htrips, hall, hpair⟩ := @Artifact.pair_eq_ok spec.symbol _ none halternates
    (fun _ h => by cases h) hrunning.symbols hsorted
  rw [Option.toList_none, nil_append] at htrips
  subst htrips
  rw [Artifact.countP_tripFills hall] at hcountTrades
  have hpolicy := (hrunning.exact (hlen.trans (by decide))).sound.policy
  have htripLen : trips.length ≤ Artifact.tripLimit := by
    have := (Artifact.tripFills trips).countP_le_length (p := PortfolioLedger.isExit)
    rw [Artifact.countP_tripFills hall] at this
    exact (this.trans hlen).trans (by decide)
  obtain ⟨hg, hn, hf, hs⟩ := Artifact.toRat_totals hall hpolicy htripLen
  have hreconciles : Artifact.Reconciles (trips.map fun t => .of t.1 t.2) report := by
    unfold Artifact.Reconciles
    rw [hfields]
    exact ⟨hg.trans hgross.symm, hn.trans hnet.symm, hf.trans hfee.symm, hs.trans hslip.symm⟩
  refine ⟨_, ?_, hreconciles⟩
  unfold Artifact._trades
  rw [hpair, ok_bind]
  rw [raiseIf_neg, ok_bind, raiseIf_neg (not_not.mpr hreconciles), ok_bind]
  · rfl
  · rw [hfields]
    simpa using hcountTrades.symm

end PaperSession

namespace Artifact

theorem _interval_ne {symbol : Symbol} {interval : Interval} {candles : List Candle}
    {e : ArtifactError} (h : _interval symbol interval candles = .error e) : e ≠ notReconciled := by
  unfold _interval at h
  cases candles with
  | nil =>
    cases h
    decide
  | cons first rest =>
    dsimp only at h
    rw [bind_eq_error] at h
    rcases h with h | ⟨_, -, h⟩
    · obtain ⟨-, rfl⟩ := raiseIf_eq_error.mp h
      decide
    · cases h

theorem _data_ne {dataset : AcceptedBacktestDataset} {e : ArtifactError}
    (h : _data dataset = .error e) : e ≠ notReconciled := by
  unfold _data at h
  simp only [bind_eq_error, raiseIf_eq_error] at h
  rcases h with ⟨-, rfl⟩ | ⟨_, -, h | ⟨_, -, h | ⟨_, -, h | ⟨_, -, h⟩⟩⟩⟩
  · decide
  · exact _interval_ne h
  · exact _interval_ne h
  · exact _interval_ne h
  · cases h

end Artifact

namespace PaperSession

variable {spec : BacktestSpec} {p : PaperSession} {fills : List CostedFill}

/-- **Backtest artifact reconciliation.** -/
theorem artifact_reconciliation (dataset : AcceptedBacktestDataset) {s : Schedule}
    {points : List EquityPoint} {report : PerformanceReport}
    (h : execute dataset.spec s = .ok (fills, points, p))
    (hreport : calculateMetrics points = .ok report) :
    Artifact.buildRunManifest dataset fills report ≠ .error Artifact.notReconciled ∧
      (InRange dataset.spec fills → ∃ trades,
        Artifact._trades dataset.spec.symbol fills report = .ok trades ∧
          Artifact.Reconciles trades report) := by
  refine ⟨?_, trades_of_execute h hreport⟩
  obtain ⟨first, rest, rfl, -, ⟨price, hfirst⟩, -, -⟩ := execute_eq_ok h
  obtain ⟨values, hvalues, hfields⟩ := calculateMetrics_eq_ok.mp hreport
  have hpoints : report.points = first :: rest := by rw [hfields]
  have hsymbol : first.portfolio.symbol = dataset.spec.symbol := by rw [hfirst]; rfl
  intro herror
  unfold Artifact.buildRunManifest at herror
  rw [hpoints] at herror
  dsimp only at herror
  rw [hsymbol] at herror
  simp only [bind_eq_error] at herror
  rcases herror with he | ⟨⟨⟩, -, he | ⟨⟨⟩, hrange, he | ⟨data, -, he | ⟨trades, -, he⟩⟩⟩⟩
  · exact absurd (raiseIf_eq_error.mp he).2 (by decide)
  · exact absurd (raiseIf_eq_error.mp he).2 (by decide)
  · exact Artifact._data_ne he rfl
  · have hinside : InRange dataset.spec fills := by
      rw [raiseIf_eq_ok, not_or, not_or] at hrange
      intro f hf
      by_contra hout
      exact hrange.2.2 ⟨f, hf, hout⟩
    obtain ⟨trades, htrades, -⟩ := trades_of_execute h hreport hinside
    rw [htrades] at he
    cases he
  · cases he

def twoHourSpec : BacktestSpec where
  symbol := .btcusdt
  startTimeMs := 10800000
  endTimeMs := 18000000
  valid := by decide

/-- A candle that falls through the stop of `firstEntry`. -/
def fallingCandle : Candle :=
  ⟨{ Candle.flat .btcusdt .h1 14400000 "100" with low := "80" }, by decide +kernel⟩

def roundTripSchedule : Schedule where
  timeMs := 10800000
  mark := "100"
  opening := none
  steps := [({ firstEntry with fillCandle := fallingCandle }, "100")]
  closed := fun _ => rfl

def twoHourDataset : AcceptedBacktestDataset where
  spec := twoHourSpec
  manifestGeneratedAtMs := 1
  primary := firstEvent.snapshot.primary ++ [fallingCandle]
  context := firstEvent.snapshot.context
  regime := firstEvent.snapshot.regime

theorem artifact_reconciliation_round_trip :
    ∃ fills points p report, execute twoHourDataset.spec roundTripSchedule = .ok (fills, points, p) ∧
      fills.length = 2 ∧ calculateMetrics points = .ok report ∧
      Artifact.buildRunManifest twoHourDataset fills report ≠ .error Artifact.notReconciled ∧
      ∃ trades, Artifact._trades twoHourSpec.symbol fills report = .ok trades ∧
        Artifact.Reconciles trades report := by
  have hrun : (match execute twoHourDataset.spec roundTripSchedule with
      | .ok (fills, points, _) => decide (fills.length = 2 ∧ ∀ f ∈ fills,
          twoHourSpec.startTimeMs ≤ f.reference.fillTimeMs ∧
            f.reference.fillTimeMs < twoHourSpec.endTimeMs) && (calculateMetrics points).toBool
      | .error _ => false) = true := by decide +kernel
  split at hrun
  · rename_i fills points p hexecute
    rw [Bool.and_eq_true, decide_eq_true_eq] at hrun
    obtain ⟨⟨hlength, hrange⟩, hmetrics⟩ := hrun
    cases hreport : calculateMetrics points with
    | error e =>
      rw [hreport] at hmetrics
      cases hmetrics
    | ok report =>
      obtain ⟨hnever, hsums⟩ := artifact_reconciliation twoHourDataset hexecute hreport
      exact ⟨fills, points, p, report, hexecute, hlength, hreport, hnever, hsums hrange⟩
  · cases hrun

end PaperSession

end TradingLab
