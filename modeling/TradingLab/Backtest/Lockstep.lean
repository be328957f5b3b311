import TradingLab.Backtest.Conservation
import TradingLab.Backtest.FillEngine

/-!
# The fill engine and the ledger

The fills of each call are costed and booked as one batch, when there are any.
The engine moves on whether or not the ledger takes the batch. Both hold the same
position as long as entries are paid for: a refused entry stays with the engine
until its exit, which is refused as well.
-/

namespace TradingLab

open Decimal Method PaperFillEngine

namespace PortfolioLedger

variable {spec : BacktestSpec} {s s' : PortfolioLedger}

def insufficientCash : PortfolioError := ⟨"Portfolio has insufficient cash"⟩
def notFullExit : PortfolioError := ⟨"Exit must close the full long position"⟩

/-- What holds of the ledger before every batch. -/
structure Kept (spec : BacktestSpec) (s : PortfolioLedger) : Prop where
  sound : Sound spec s.applied s
  timely : ∀ g ∈ s.applied, ∀ t ∈ s.lastFillTimeMs, g.reference.fillTimeMs ≤ t
  sorted : s.applied.Pairwise fun f g => f.reference.fillTimeMs ≤ g.reference.fillTimeMs

theorem kept_init (spec : BacktestSpec) : Kept spec (init spec) where
  sound := sound_init spec
  timely g hg := by simp [init] at hg
  sorted := .nil

variable {f : CostedFill} {r : FillReference}

theorem Kept.le_of_accepts (hs : Kept spec s) (h : s.Accepts f) :
    ∀ g ∈ s.applied, g.reference.fillTimeMs ≤ f.reference.fillTimeMs := by
  intro g hg
  cases hl : s.lastFillTimeMs with
  | none =>
    have hlast := hs.sound.lastFill
    rw [hl, eq_comm, Option.map_eq_none_iff, List.getLast?_eq_none_iff] at hlast
    rw [hlast] at hg
    cases hg
  | some t => exact (hs.timely g hg t hl).trans (h.order t hl)

theorem Kept.posted (hs : Kept spec s) (h : s.Accepts f) :
    Kept spec (s.posted f) := by
  have hle := hs.le_of_accepts h
  refine ⟨hs.sound.posted h, ?_, ?_⟩
  · intro g hg t ht
    change g ∈ s.applied ++ [f] at hg
    rw [posted_lastFill, Option.mem_some_iff] at ht
    subst ht
    rcases List.mem_append.mp hg with hg | hg
    · exact hle g hg
    · rw [List.mem_singleton.mp hg]
  · change (s.applied ++ [f]).Pairwise _
    rw [List.pairwise_append]
    refine ⟨hs.sorted, List.pairwise_singleton _ _, ?_⟩
    intro g hg x hx
    rw [List.mem_singleton.mp hx]
    exact hle g hg

/-- The fills of the ledger all come before a time. -/
def Before (s : PortfolioLedger) (time : ℤ) : Prop := ∀ t ∈ s.lastFillTimeMs, t < time

instance (s : PortfolioLedger) (time : ℤ) : Decidable (s.Before time) := by
  unfold Before
  infer_instance

theorem Kept.admitted (hs : Kept spec s) (hsym : r.symbol = spec.symbol)
    (hlater : ∀ g ∈ s.applied, g.reference ≠ r ∧ g.reference.fillTimeMs ≤ r.fillTimeMs) :
    s._admit (costFill r spec) = .ok () := by
  refine _admit_eq_ok.mpr ⟨?_, ?_, ?_, ?_⟩
  · rw [reference_costFill, hs.sound.same_spec, hsym]
  · rw [hs.sound.same_spec]
    exact usesPolicy_costFill r spec
  · rintro ⟨g, hg, hsame⟩
    exact (hlater g hg).1 hsame.reference
  · intro t ht
    have hlast := hs.sound.lastFill
    rw [Option.mem_def.mp ht, eq_comm, Option.map_eq_some_iff] at hlast
    obtain ⟨g, hg, rfl⟩ := hlast
    exact (hlater g (List.mem_of_getLast? hg)).2

theorem Kept.later (hs : Kept spec s) (h : s.Before r.fillTimeMs) :
    ∀ g ∈ s.applied, g.reference ≠ r ∧ g.reference.fillTimeMs ≤ r.fillTimeMs := by
  intro g hg
  have hlt : g.reference.fillTimeMs < r.fillTimeMs := by
    cases hl : s.lastFillTimeMs with
    | none =>
      have hlast := hs.sound.lastFill
      rw [hl, eq_comm, Option.map_eq_none_iff, List.getLast?_eq_none_iff] at hlast
      rw [hlast] at hg
      cases hg
    | some t => exact (hs.timely g hg t hl).trans_lt (h t hl)
  exact ⟨fun he => lt_irrefl _ (he ▸ hlt), hlt.le⟩

theorem apply_entry (ha : r.action = .enterLong)
    (hadmitted : s._admit (costFill r spec) = .ok ()) (hflat : ¬ s.hasPosition) :
    s.Accepts (costFill r spec) ∨
      ((_apply (costFill r spec)).call s).1 = .error insufficientCash := by
  obtain ⟨hsym, hpol, hfresh, hord⟩ := _admit_eq_ok.mp hadmitted
  by_cases hcash : add decimalPrecision s.cash (costFill r spec).cashDelta < 0
  · right
    unfold _apply _enter
    rw [call_read_bind, call_bind, call_check, id, hadmitted]
    dsimp only
    rw [call_bind, reference_costFill, if_pos ha, call_read_bind, call_bind, call_check, id,
      raiseIf_neg hflat]
    dsimp only
    rw [call_bind, call_check, raiseIf, if_pos hcash]
    rfl
  · left
    rw [lt_def, not_lt, ← le_def] at hcash
    refine ⟨hsym, hpol, hfresh, hord, fun _ => hflat, fun hn => (hn ha).elim, hcash, ?_⟩
    rw [posted_assetQuantity, reference_costFill, if_pos ha, assetDelta_costFill, if_pos ha, le_def,
      toRat_zero]
    exact r.facts.2.1.2.le

variable {e : PortfolioError}

theorem apply_entry_error (ha : r.action = .enterLong)
    (hadmitted : s._admit (costFill r spec) = .ok ()) (hflat : ¬ s.hasPosition)
    (h : ((_apply (costFill r spec)).call s).1 = .error e) : e = insufficientCash := by
  rcases apply_entry ha hadmitted hflat with hacc | herr
  · rw [call_apply_eq_ok.mpr ⟨hacc, rfl⟩] at h
    cases h
  · rw [h] at herr
    cases herr
    rfl

theorem cashDelta_exit_nonneg (spec : BacktestSpec) (ha : r.action = .exitLong) :
    0 ≤ (costFill r spec).cashDelta.toRat := by
  obtain ⟨-, -, ⟨f0, f1, -⟩, s0, s1, -⟩ := spec.facts
  obtain ⟨-, ⟨-, q0⟩, -, p0⟩ := r.facts
  have hprice := (slippedPrice_bounds r.action p0.le
    (by positivity : 0 ≤ spec.slippageBpsDecimal.toRat / 10000) (by linarith)).1
  have hne : ¬ r.action = .enterLong := by simp [ha]
  rw [(usesPolicy_costFill r spec).toRat.1]
  change 0 ≤ (if r.action = .enterLong then -1 else 1) * (r.quantityDecimal.toRat * slippedPrice
    r.action r.priceDecimal.toRat (spec.slippageBpsDecimal.toRat / 10000)) -
    r.quantityDecimal.toRat * slippedPrice r.action r.priceDecimal.toRat
      (spec.slippageBpsDecimal.toRat / 10000) * (spec.feeBpsDecimal.toRat / 10000)
  rw [if_neg hne]
  have hgross := mul_nonneg q0.le hprice
  nlinarith

theorem Kept.exit (hs : Kept spec s) (ha : r.action = .exitLong)
    (hadmitted : s._admit (costFill r spec) = .ok ())
    (hheld : s.assetQuantity.toRat = r.quantityDecimal.toRat) : s.Accepts (costFill r spec) := by
  obtain ⟨hsym, hpol, hfresh, hord⟩ := _admit_eq_ok.mp hadmitted
  have hne : ¬ r.action = .enterLong := by simp [ha]
  have hq := r.facts.2.1.2
  refine ⟨hsym, hpol, hfresh, hord, fun h => (hne h).elim, fun _ => ⟨?_, ?_⟩, ?_, ?_⟩
  · rw [hasPosition, lt_def, toRat_zero, hheld]
    exact hq
  · rw [equiv_def, toRat_copyNegate, (usesPolicy_costFill r spec).toRat.2.2.2, hheld]
    change -(if r.action = .enterLong then _ else -r.quantityDecimal.toRat) = _
    rw [if_neg hne, neg_neg]
  · rw [posted_cash, le_def, toRat_zero]
    apply toRat_round_nonneg
    rw [toRat_addExact]
    linarith [hs.sound.cash_nonneg, cashDelta_exit_nonneg spec ha]
  · rw [posted_assetQuantity, reference_costFill, if_neg hne, le_def]

theorem apply_exit_flat (ha : r.action = .exitLong)
    (hadmitted : s._admit (costFill r spec) = .ok ()) (hflat : ¬ s.hasPosition) :
    ((_apply (costFill r spec)).call s).1 = .error notFullExit := by
  have hne : ¬ r.action = .enterLong := by simp [ha]
  unfold _apply _exit
  rw [call_read_bind, call_bind, call_check, id, hadmitted]
  dsimp only
  rw [call_bind, reference_costFill, if_neg hne, call_read_bind, call_bind, call_check, id,
    raiseIf, if_pos (.inl hflat)]
  rfl

theorem call_applyMany_single :
    (applyMany [f]).call s = (.ok (), s') ↔ s.Accepts f ∧ s' = s.posted f := by
  rw [call_applyMany_eq_ok, ← call_apply_single, call_apply, call_onError_eq_ok, call_apply_eq_ok]
  simp [maxLedgerBatch]

theorem call_applyMany_pair {g : CostedFill} :
    (applyMany [f, g]).call s = (.ok (), s') ↔
      s.Accepts f ∧ (s.posted f).Accepts g ∧ s' = (s.posted f).posted g := by
  rw [call_applyMany_eq_ok, _applyAll, call_bind_eq_ok]
  constructor
  · rintro ⟨-, ⟨⟩, t, hf, hg⟩
    obtain ⟨hacc, rfl⟩ := call_apply_eq_ok.mp hf
    rw [_applyAll, call_bind_eq_ok] at hg
    obtain ⟨⟨⟩, u, hg, hu⟩ := hg
    cases hu
    exact ⟨hacc, call_apply_eq_ok.mp hg⟩
  · rintro ⟨hf, hg, rfl⟩
    refine ⟨by simp [maxLedgerBatch], (), _, call_apply_eq_ok.mpr ⟨hf, rfl⟩, ?_⟩
    rw [_applyAll, call_bind_eq_ok]
    exact ⟨(), _, call_apply_eq_ok.mpr ⟨hg, rfl⟩, rfl⟩

/-- A batch is refused with the error of its first fill that is, and changes nothing. -/
theorem call_applyMany_eq_error {fs : List CostedFill} (hsize : (f :: fs).length ≤ maxLedgerBatch)
    (h : (applyMany (f :: fs)).call s = (.error e, s')) :
    s' = s ∧ ((_apply f).call s).1 = .error e ∨
      s' = s ∧ s.Accepts f ∧ ((_applyAll fs).call (s.posted f)).1 = .error e := by
  have hsame : s' = s := by
    have hnot : ¬ (Call.applyMany (f :: fs)).method.Returns s := by
      rintro ⟨u, hu⟩
      rw [Call.method, h] at hu
      cases hu
    have := after_of_not_returns _ hnot
    rwa [after, Call.method, h] at this
  unfold applyMany at h
  rw [call_bind, call_check, raiseIf_neg (not_not.mpr ⟨by simp, hsize⟩)] at h
  dsimp only at h
  rw [_state, call_read_bind, call_onError, _applyAll, call_bind] at h
  rcases hf : (_apply f).call s with ⟨r, t⟩
  rw [hf] at h
  cases r with
  | error e' =>
    cases h
    exact .inl ⟨hsame, rfl⟩
  | ok u =>
    obtain ⟨hacc, rfl⟩ := call_apply_eq_ok.mp hf
    right
    refine ⟨hsame, hacc, ?_⟩
    dsimp only at h
    rcases hfs : (_applyAll fs).call (s.posted f) with ⟨r, t⟩
    rw [hfs] at h
    cases r with
    | ok u => cases h
    | error e' =>
      cases h
      rfl

end PortfolioLedger

/-- The engine and the ledger of one run. -/
structure PaperSession where
  engine : PaperFillEngine
  ledger : PortfolioLedger

namespace PaperSession

/-- What became of a call: it raised, emitted nothing, or its batch was taken or refused. -/
inductive Outcome where
  | raised (e : FillModelError)
  | uncosted (e : CostModelError)
  | idle
  | applied (fills : List CostedFill)
  | refused (fills : List CostedFill) (e : PortfolioError)
deriving DecidableEq

def Outcome.fills : Outcome → List CostedFill
  | applied fills => fills
  | refused fills _ => fills
  | _ => []

def init (spec : BacktestSpec) : PaperSession := ⟨.init spec.symbol, .init spec⟩

/-- Pass a costed batch to the ledger. -/
def book (engine : PaperFillEngine) (ledger : PortfolioLedger) (costed : List CostedFill) :
    Outcome × PaperSession :=
  match (PortfolioLedger.applyMany costed).call ledger with
  | (.ok (), ledger) => (.applied costed, ⟨engine, ledger⟩)
  | (.error e, ledger) => (.refused costed e, ⟨engine, ledger⟩)

/-- Process a call, cost its fills and book them. -/
def submit (p : PaperSession) (c : PaperFillEngine.Call) : Outcome × PaperSession :=
  match (PaperFillEngine.process c).call p.engine with
  | (.error e, engine) => (.raised e, ⟨engine, p.ledger⟩)
  | (.ok references, engine) =>
      match references.mapM fun r => applyCosts r p.ledger.spec with
      | .error e => (.uncosted e, ⟨engine, p.ledger⟩)
      | .ok [] => (.idle, ⟨engine, p.ledger⟩)
      | .ok costed => book engine p.ledger costed

/-- The outcomes of a list of calls, and the session after it. -/
def run : List PaperFillEngine.Call → PaperSession → List Outcome × PaperSession
  | [], p => ([], p)
  | c :: calls, p =>
      let step := p.submit c
      let rest := run calls step.2
      (step.1 :: rest.1, rest.2)

/-- Both parts belong to the specification. -/
structure Sound (spec : BacktestSpec) (p : PaperSession) : Prop where
  ledger : PortfolioLedger.Kept spec p.ledger
  symbol : p.engine.symbol = spec.symbol

/-- Engine and ledger hold the same quantity. -/
def Together (p : PaperSession) : Prop :=
  match p.engine.openQuantity with
  | none => ¬ p.ledger.hasPosition
  | some quantity => p.ledger.assetQuantity.toRat = (ofText quantity).toRat

/-- The engine waits for the exit of an entry that the ledger does not have. -/
def Waiting (p : PaperSession) : Prop := p.engine.hasPosition ∧ ¬ p.ledger.hasPosition

def Opens (fills : List CostedFill) : Prop :=
  ∃ f ∈ fills.head?, f.reference.action = .enterLong

/-- The last fill of the session is a refused entry. -/
def EntryRefused (os : List Outcome) : Prop :=
  ∃ pre f e post, os = pre ++ .refused [f] e :: post ∧ f.reference.action = .enterLong ∧
    ∀ o ∈ post, o.fills = []

variable {spec : BacktestSpec} {p : PaperSession} {c : PaperFillEngine.Call}

variable {quantity : String} {os : List Outcome}

variable {s : PaperFillEngine} {o : Outcome} {p' : PaperSession}

theorem openQuantity_pos (h : s.openQuantity = some quantity) : 0 < (ofText quantity).toRat := by
  rw [openQuantity, Option.map_eq_some_iff] at h
  obtain ⟨position, -, rfl⟩ := h
  have := position.sized.2
  rwa [lt_def, toRat_zero] at this

theorem hasPosition_of_openQuantity (h : s.openQuantity = some quantity) : s.hasPosition := by
  by_contra hn
  rw [openQuantity_eq_none.mpr hn] at h
  cases h

theorem Together.agree (h : p.Together) : p.engine.hasPosition ↔ p.ledger.hasPosition := by
  unfold Together at h
  cases hq : p.engine.openQuantity with
  | none =>
    rw [hq] at h
    exact iff_of_false (openQuantity_eq_none.mp hq) h
  | some quantity =>
    rw [hq] at h
    refine iff_of_true (hasPosition_of_openQuantity hq) ?_
    rw [PortfolioLedger.hasPosition, lt_def, toRat_zero]
    rw [h]
    exact openQuantity_pos hq

theorem mapM_applyCosts {rs : List FillReference} (h : ∀ r ∈ rs, r.symbol = spec.symbol) :
    (rs.mapM fun r => applyCosts r spec) = .ok (rs.map fun r => costFill r spec) := by
  induction rs with
  | nil => rfl
  | cons r rs ih =>
    rw [List.mapM_cons, applyCosts_eq_ok (h r List.mem_cons_self), ok_bind,
      ih fun x hx => h x (List.mem_cons_of_mem r hx), ok_bind]
    rfl

/-- A call raises and changes nothing, emits nothing, or books the fills it emits. -/
theorem submit_cases (hs : p.Sound spec) (c : PaperFillEngine.Call) :
    (∃ e, (PaperFillEngine.process c).call p.engine = (.error e, p.engine) ∧
        p.submit c = (.raised e, p)) ∨
      ∃ fills engine, (PaperFillEngine.process c).call p.engine = (.ok fills, engine) ∧
        engine.symbol = spec.symbol ∧
        PaperFillEngine.Emits spec.symbol c.event.decisionTimeMs p.engine.openQuantity fills
          engine.openQuantity ∧
        (fills = [] ∧ p.submit c = (.idle, ⟨engine, p.ledger⟩) ∨
          fills ≠ [] ∧ p.submit c = book engine p.ledger (fills.map fun r => costFill r spec)) := by
  unfold submit
  rcases hc : (process c).call p.engine with ⟨r, engine⟩
  cases r with
  | error e =>
    left
    rw [call_process_eq_error hc]
    exact ⟨e, rfl, rfl⟩
  | ok fills =>
    right
    obtain ⟨hsym, hemits⟩ := call_process_eq_ok hc
    rw [hs.symbol] at hsym hemits
    refine ⟨fills, engine, rfl, hsym, hemits, ?_⟩
    have hsymbols : ∀ r ∈ fills, r.symbol = spec.symbol := fun r hr => (hemits.reference r hr).1
    dsimp only
    rw [hs.ledger.sound.same_spec, mapM_applyCosts hsymbols]
    cases fills with
    | nil => exact .inl ⟨rfl, rfl⟩
    | cons r rs => exact .inr ⟨by simp, rfl⟩

theorem Sound.posted {f : CostedFill} {engine : PaperFillEngine} (hs : p.Sound spec)
    (hsym : engine.symbol = spec.symbol) (h : p.ledger.Accepts f) :
    Sound spec ⟨engine, p.ledger.posted f⟩ := ⟨hs.ledger.posted h, hsym⟩

theorem asset_posted (s : PortfolioLedger) (r : FillReference) :
    (s.posted (costFill r spec)).assetQuantity.toRat =
      if r.action = .enterLong then r.quantityDecimal.toRat else 0 := by
  rw [PortfolioLedger.posted_assetQuantity, PortfolioLedger.reference_costFill]
  split_ifs with ha
  · rw [PortfolioLedger.assetDelta_costFill, if_pos ha]
  · exact toRat_zero

theorem Together.held (h : p.Together) (hq : p.engine.openQuantity = some quantity) :
    p.ledger.assetQuantity.toRat = (ofText quantity).toRat := by
  rw [Together, hq] at h
  exact h

theorem Together.flat (h : p.Together) (hq : p.engine.openQuantity = none) :
    ¬ p.ledger.hasPosition := by
  rw [Together, hq] at h
  exact h

theorem together_of_flat (hq : p.engine.openQuantity = none) (h : ¬ p.ledger.hasPosition) :
    p.Together := by
  rw [Together, hq]
  exact h

theorem together_of_held (hq : p.engine.openQuantity = some quantity)
    (h : p.ledger.assetQuantity.toRat = (ofText quantity).toRat) : p.Together := by
  rw [Together, hq]
  exact h

theorem together_of_open (hp : p.Together ∨ p.Waiting) (hq : p.engine.openQuantity = none) :
    p.Together := by
  rcases hp with hp | ⟨hp, -⟩
  · exact hp
  · exact (openQuantity_eq_none.mp hq hp).elim

/-- What a call with the given outcome did. -/
def Follows (time : ℤ) (p p' : PaperSession) : Outcome → Prop
  | .raised _ => p' = p
  | .uncosted _ => False
  | .idle => p'.ledger = p.ledger ∧ p'.engine.openQuantity = p.engine.openQuantity
  | .applied _ => p'.Together ∧ p'.ledger.lastFillTimeMs = some time
  | .refused fills e => p'.ledger = p.ledger ∧
      (p.Together → p.ledger.Before time → e = PortfolioLedger.insufficientCash ∧ Opens fills ∧
        (p'.Together ∨ p'.Waiting ∧ ∃ f, fills = [f])) ∧
      (p.Waiting → p'.Together ∧ (p.ledger.Before time → e = PortfolioLedger.notFullExit))

section Batch
variable {engine : PaperFillEngine} {time : ℤ} {r x : FillReference}

/-- A batch that is one entry. -/
theorem book_enter (hs : p.Sound spec) (hp : p.Together ∨ p.Waiting)
    (hsym : engine.symbol = spec.symbol) (h : p.engine.openQuantity = none)
    (ha : r.action = .enterLong) (hr : r.symbol = spec.symbol ∧ r.fillTimeMs = time)
    (hq : engine.openQuantity = some r.quantity) :
    let step := book engine p.ledger [costFill r spec]
    step.2.Sound spec ∧ Follows time p step.2 step.1 := by
  have htogether := together_of_open hp h
  have hflat := htogether.flat h
  unfold book
  rcases hcall : (PortfolioLedger.applyMany [costFill r spec]).call p.ledger with ⟨⟨e⟩ | ⟨⟨⟩⟩, ledger⟩
  · have hsame : ledger = p.ledger ∧
        ((PortfolioLedger._apply (costFill r spec)).call p.ledger).1 = .error e := by
      rcases PortfolioLedger.call_applyMany_eq_error (by simp [maxLedgerBatch]) hcall with h | ⟨-, -, h⟩
      · exact h
      · cases h
    obtain ⟨rfl, he⟩ := hsame
    have hwait : Waiting ⟨engine, p.ledger⟩ := ⟨hasPosition_of_openQuantity hq, hflat⟩
    refine ⟨⟨hs.ledger, hsym⟩, rfl, ?_, ?_⟩
    · intro _ hbefore
      rw [← hr.2] at hbefore
      have hadmitted := hs.ledger.admitted hr.1 (hs.ledger.later hbefore)
      exact ⟨PortfolioLedger.apply_entry_error ha hadmitted hflat he, ⟨_, rfl, ha⟩,
        .inr ⟨hwait, _, rfl⟩⟩
    · intro hw
      exact (openQuantity_eq_none.mp h hw.1).elim
  · obtain ⟨hacc, rfl⟩ := PortfolioLedger.call_applyMany_single.mp hcall
    refine ⟨hs.posted hsym hacc, together_of_held hq ?_, ?_⟩
    · change (p.ledger.posted _).assetQuantity.toRat = _
      rw [asset_posted, if_pos ha]
      rfl
    · rw [← hr.2]
      rfl

/-- A batch that is one exit. -/
theorem book_exit (hs : p.Sound spec) (hsym : engine.symbol = spec.symbol)
    (h : p.engine.openQuantity = some r.quantity) (ha : r.action = .exitLong)
    (hr : r.symbol = spec.symbol ∧ r.fillTimeMs = time) (hq : engine.openQuantity = none) :
    let step := book engine p.ledger [costFill r spec]
    step.2.Sound spec ∧ Follows time p step.2 step.1 := by
  have hne : ¬ r.action = .enterLong := by simp [ha]
  unfold book
  rcases hcall : (PortfolioLedger.applyMany [costFill r spec]).call p.ledger with ⟨⟨e⟩ | ⟨⟨⟩⟩, ledger⟩
  · have hsame : ledger = p.ledger ∧
        ((PortfolioLedger._apply (costFill r spec)).call p.ledger).1 = .error e := by
      rcases PortfolioLedger.call_applyMany_eq_error (by simp [maxLedgerBatch]) hcall with
        h | ⟨-, -, h⟩
      · exact h
      · cases h
    obtain ⟨rfl, he⟩ := hsame
    refine ⟨⟨hs.ledger, hsym⟩, rfl, ?_, ?_⟩
    · intro htogether hbefore
      rw [← hr.2] at hbefore
      have hadmitted := hs.ledger.admitted hr.1 (hs.ledger.later hbefore)
      have hacc := hs.ledger.exit ha hadmitted (htogether.held h)
      rw [PortfolioLedger.call_apply_eq_ok.mpr ⟨hacc, rfl⟩] at he
      cases he
    · intro hw
      refine ⟨together_of_flat hq hw.2, fun hbefore => ?_⟩
      rw [← hr.2] at hbefore
      have hadmitted := hs.ledger.admitted hr.1 (hs.ledger.later hbefore)
      have herr := PortfolioLedger.apply_exit_flat ha hadmitted hw.2
      rw [he] at herr
      cases herr
      rfl
  · obtain ⟨hacc, rfl⟩ := PortfolioLedger.call_applyMany_single.mp hcall
    refine ⟨hs.posted hsym hacc, together_of_flat hq ?_, ?_⟩
    · rw [PortfolioLedger.hasPosition, lt_def, toRat_zero, asset_posted, if_neg hne]
      exact lt_irrefl 0
    · rw [← hr.2]
      rfl

/-- A batch that opens and closes a position inside one candle. -/
theorem book_roundTrip (hs : p.Sound spec) (hp : p.Together ∨ p.Waiting)
    (hsym : engine.symbol = spec.symbol) (h : p.engine.openQuantity = none)
    (ha : r.action = .enterLong) (hr : r.symbol = spec.symbol ∧ r.fillTimeMs = time)
    (hx : x.action = .exitLong) (hxr : x.symbol = spec.symbol ∧ x.fillTimeMs = time)
    (hqx : x.quantity = r.quantity) (hq : engine.openQuantity = none) :
    let step := book engine p.ledger [costFill r spec, costFill x spec]
    step.2.Sound spec ∧ Follows time p step.2 step.1 := by
  have hne : ¬ x.action = .enterLong := by simp [hx]
  have htogether := together_of_open hp h
  have hflat := htogether.flat h
  unfold book
  rcases hcall : (PortfolioLedger.applyMany [costFill r spec, costFill x spec]).call p.ledger with
    ⟨⟨e⟩ | ⟨⟨⟩⟩, ledger⟩
  · have hcases := PortfolioLedger.call_applyMany_eq_error (by simp [maxLedgerBatch]) hcall
    have hsame : ledger = p.ledger := by
      rcases hcases with ⟨h, -⟩ | ⟨h, -⟩
      · exact h
      · exact h
    subst hsame
    refine ⟨⟨hs.ledger, hsym⟩, rfl, ?_, ?_⟩
    · intro _ hbefore
      have hbefore' := hbefore
      rw [← hr.2] at hbefore
      rw [← hxr.2] at hbefore'
      have hadmitted := hs.ledger.admitted hr.1 (hs.ledger.later hbefore)
      refine ⟨?_, ⟨_, rfl, ha⟩, .inl (together_of_flat hq hflat)⟩
      rcases hcases with ⟨-, he⟩ | ⟨-, hacc, he⟩
      · exact PortfolioLedger.apply_entry_error ha hadmitted hflat he
      · -- the exit of the entry just posted is always taken
        have hlater : ∀ g ∈ (p.ledger.posted (costFill r spec)).applied,
            g.reference ≠ x ∧ g.reference.fillTimeMs ≤ x.fillTimeMs := by
          intro g hg
          rcases List.mem_append.mp hg with hg | hg
          · exact hs.ledger.later hbefore' g hg
          · rw [List.mem_singleton.mp hg, PortfolioLedger.reference_costFill]
            refine ⟨fun heq => ?_, by rw [hr.2, hxr.2]⟩
            rw [heq, hx] at ha
            cases ha
        have hkept := hs.ledger.posted hacc
        have hheld : (p.ledger.posted (costFill r spec)).assetQuantity.toRat =
            x.quantityDecimal.toRat := by
          rw [asset_posted, if_pos ha, FillReference.quantityDecimal, FillReference.quantityDecimal,
            hqx]
        have hexit := hkept.exit hx (hkept.admitted hxr.1 hlater) hheld
        rw [PortfolioLedger._applyAll, call_bind,
          PortfolioLedger.call_apply_eq_ok.mpr ⟨hexit, rfl⟩] at he
        cases he
    · intro hw
      exact (openQuantity_eq_none.mp h hw.1).elim
  · obtain ⟨hacc, hexit, rfl⟩ := PortfolioLedger.call_applyMany_pair.mp hcall
    refine ⟨⟨(hs.ledger.posted hacc).posted hexit, hsym⟩, together_of_flat hq ?_, ?_⟩
    · rw [PortfolioLedger.hasPosition, lt_def, toRat_zero, asset_posted, if_neg hne]
      exact lt_irrefl 0
    · rw [← hxr.2]
      rfl

end Batch

/-- What one call does, from a session whose parts hold the same or wait. -/
theorem submit_follows (hs : p.Sound spec) (hp : p.Together ∨ p.Waiting)
    (c : PaperFillEngine.Call) :
    (p.submit c).2.Sound spec ∧
      Follows c.event.decisionTimeMs p (p.submit c).2 (p.submit c).1 := by
  rcases submit_cases hs c with ⟨e, -, he⟩ | ⟨fills, engine, -, hsym, hemits, hstep⟩
  · rw [he]
    exact ⟨hs, rfl⟩
  · rcases hstep with ⟨hfills, hstep⟩ | ⟨hfills, hstep⟩
    · rw [hstep]
      refine ⟨⟨hs.ledger, hsym⟩, rfl, ?_⟩
      rw [hfills] at hemits
      generalize p.engine.openQuantity = before at hemits ⊢
      change engine.openQuantity = before
      generalize engine.openQuantity = after at hemits ⊢
      cases hemits
      rfl
    · rw [hstep]
      generalize hb : p.engine.openQuantity = before at hemits
      generalize hq : engine.openQuantity = after at hemits
      cases hemits with
      | idle => exact (hfills rfl).elim
      | enter ha hr => exact book_enter hs hp hsym hb ha hr hq
      | exit ha hr => exact book_exit hs hsym hb ha hr hq
      | roundTrip ha hr hx hxr hqx => exact book_roundTrip hs hp hsym hb ha hr hx hxr hqx hq

theorem submit_emitted (hs : p.Sound spec) (c : PaperFillEngine.Call) :
    (PaperFillEngine.runFrom [c] p.engine).1 =
        (p.submit c).1.fills.map (fun f => f.reference) ∧
      (PaperFillEngine.runFrom [c] p.engine).2 = (p.submit c).2.engine := by
  rcases submit_cases hs c with ⟨e, hc, he⟩ | ⟨fills, engine, hc, -, -, hstep⟩
  · rw [runFrom, hc, he]
    exact ⟨rfl, rfl⟩
  · rw [runFrom, hc]
    rcases hstep with ⟨rfl, hstep⟩ | ⟨-, hstep⟩
    · rw [hstep]
      exact ⟨rfl, rfl⟩
    · have hmap : (fills.map fun r => costFill r spec).map (fun f => f.reference) = fills := by
        rw [List.map_map]
        exact List.map_id fills
      rw [hstep, book]
      rcases (PortfolioLedger.applyMany (fills.map fun r => costFill r spec)).call p.ledger with
        ⟨⟨e⟩ | ⟨⟨⟩⟩, ledger⟩
      · exact ⟨(List.append_nil fills).trans hmap.symm, rfl⟩
      · exact ⟨(List.append_nil fills).trans hmap.symm, rfl⟩

/-- Every refusal has its reason: the entry is not paid for, or the exit has no entry. -/
def Reasoned (os : List Outcome) : Prop :=
  ∀ pre fills e post, os = pre ++ .refused fills e :: post →
    (e = PortfolioLedger.insufficientCash ∧ Opens fills) ∨
      (e = PortfolioLedger.notFullExit ∧ EntryRefused pre)

theorem Reasoned.snoc (h : Reasoned os) (ho : ∀ fills e, o = .refused fills e →
      (e = PortfolioLedger.insufficientCash ∧ Opens fills) ∨
        (e = PortfolioLedger.notFullExit ∧ EntryRefused os)) : Reasoned (os ++ [o]) := by
  intro pre fills e post heq
  rcases post.eq_nil_or_concat with rfl | ⟨post, o', rfl⟩
  · obtain ⟨rfl, ho'⟩ := List.append_inj' heq rfl
    exact ho fills e (List.singleton_inj.mp ho')
  · rw [List.concat_eq_append, ← List.cons_append, ← List.append_assoc] at heq
    exact h pre fills e post (List.append_inj' heq rfl).1

theorem EntryRefused.snoc (h : EntryRefused os) (ho : o.fills = []) : EntryRefused (os ++ [o]) := by
  obtain ⟨pre, f, e, post, rfl, hf, hpost⟩ := h
  refine ⟨pre, f, e, post ++ [o], by simp, hf, ?_⟩
  intro o' ho'
  rcases List.mem_append.mp ho' with ho' | ho'
  · exact hpost o' ho'
  · rwa [List.mem_singleton.mp ho']

/-- What holds after every call of a run. -/
structure History (spec : BacktestSpec) (os : List Outcome) (p : PaperSession) : Prop where
  sound : p.Sound spec
  position : p.Together ∨ EntryRefused os ∧ p.Waiting
  reasoned : Reasoned os

theorem History.settled (h : History spec os p) : p.Together ∨ p.Waiting := by
  rcases h.position with h | ⟨-, h⟩
  · exact .inl h
  · exact .inr h

theorem Together.of_openQuantity (h : p.Together) (hl : p'.ledger = p.ledger)
    (hq : p'.engine.openQuantity = p.engine.openQuantity) : p'.Together := by
  rwa [Together, hq, hl]

theorem Waiting.of_openQuantity (h : p.Waiting) (hl : p'.ledger = p.ledger)
    (hq : p'.engine.openQuantity = p.engine.openQuantity) : p'.Waiting := by
  refine ⟨fun hn => ?_, by rw [hl]; exact h.2⟩
  have := openQuantity_eq_none.mpr (not_not.mpr hn)
  rw [hq] at this
  exact openQuantity_eq_none.mp this h.1

/-- A call whose event comes after all booked fills extends the history. -/
theorem History.submit (h : History spec os p) (hbefore : p.ledger.Before c.event.decisionTimeMs) :
    History spec (os ++ [(p.submit c).1]) (p.submit c).2 := by
  obtain ⟨hs, hf⟩ := submit_follows h.sound h.settled c
  generalize (p.submit c).1 = o at hf ⊢
  generalize (p.submit c).2 = p' at hs hf ⊢
  cases o with
  | raised e =>
    subst hf
    refine ⟨hs, ?_, h.reasoned.snoc fun _ _ => nofun⟩
    rcases h.position with hp | ⟨hr, hp⟩
    · exact .inl hp
    · exact .inr ⟨hr.snoc rfl, hp⟩
  | uncosted e => exact hf.elim
  | idle =>
    obtain ⟨hl, hq⟩ := hf
    refine ⟨hs, ?_, h.reasoned.snoc fun _ _ => nofun⟩
    rcases h.position with hp | ⟨hr, hp⟩
    · exact .inl (hp.of_openQuantity hl hq)
    · exact .inr ⟨hr.snoc rfl, hp.of_openQuantity hl hq⟩
  | applied fills => exact ⟨hs, .inl hf.1, h.reasoned.snoc fun _ _ => nofun⟩
  | refused fills e =>
    obtain ⟨-, htogether, hwaiting⟩ := hf
    rcases h.position with hp | ⟨hr, hp⟩
    · obtain ⟨rfl, hopens, hp'⟩ := htogether hp hbefore
      refine ⟨hs, ?_, h.reasoned.snoc fun fills' e' heq => ?_⟩
      · rcases hp' with hp' | ⟨hp', f, rfl⟩
        · exact .inl hp'
        · obtain ⟨g, hg, hopens⟩ := hopens
          cases hg
          exact .inr ⟨⟨os, f, _, [], rfl, hopens, by simp⟩, hp'⟩
      · cases heq
        exact .inl ⟨rfl, hopens⟩
    · obtain ⟨hp', he⟩ := hwaiting hp
      refine ⟨hs, .inl hp', h.reasoned.snoc fun fills' e' heq => ?_⟩
      cases heq
      exact .inr ⟨he hbefore, hr⟩

/-- The calls come in the order of time. -/
def Increasing (calls : List PaperFillEngine.Call) : Prop :=
  calls.Pairwise fun c d => c.event.decisionTimeMs < d.event.decisionTimeMs

theorem before_init (spec : BacktestSpec) (time : ℤ) : (init spec).ledger.Before time := by
  intro t ht
  cases ht

theorem before_submit (hs : p.Sound spec) (hp : p.Together ∨ p.Waiting) {time : ℤ}
    (hbefore : p.ledger.Before time) (hlt : c.event.decisionTimeMs < time) :
    (p.submit c).2.ledger.Before time := by
  obtain ⟨-, hf⟩ := submit_follows hs hp c
  generalize (p.submit c).1 = o at hf
  cases o with
  | raised e =>
    rw [show (p.submit c).2 = p from hf]
    exact hbefore
  | uncosted e => exact hf.elim
  | idle =>
    rw [hf.1]
    exact hbefore
  | applied fills =>
    intro t ht
    rw [hf.2, Option.mem_some_iff] at ht
    rwa [← ht]
  | refused fills e =>
    rw [hf.1]
    exact hbefore

theorem History.run (calls : List PaperFillEngine.Call)
    (hsorted : Increasing calls) (h : History spec os p)
    (hbefore : ∀ c ∈ calls, p.ledger.Before c.event.decisionTimeMs) :
    History spec (os ++ (run calls p).1) (run calls p).2 := by
  induction calls generalizing os p with
  | nil =>
    rw [PaperSession.run, List.append_nil]
    exact h
  | cons c calls ih =>
    obtain ⟨hc, hsorted⟩ := List.pairwise_cons.mp hsorted
    have hstep := h.submit (hbefore c List.mem_cons_self)
    have hrest := ih hsorted hstep fun d hd =>
      before_submit h.sound h.settled (hbefore d (List.mem_cons_of_mem c hd)) (hc d hd)
    rw [List.append_assoc] at hrest
    exact hrest

/-- Whatever the order of the calls, the ledger stays one of the specification. -/
theorem Sound.submit (hs : p.Sound spec) (c : PaperFillEngine.Call) : (p.submit c).2.Sound spec := by
  rcases submit_cases hs c with ⟨e, -, he⟩ | ⟨fills, engine, -, hsym, -, hstep⟩
  · rw [he]
    exact hs
  · rcases hstep with ⟨-, hstep⟩ | ⟨-, hstep⟩
    · rw [hstep]
      exact ⟨hs.ledger, hsym⟩
    · rw [hstep, book]
      rcases hcall : (PortfolioLedger.applyMany (fills.map fun r => costFill r spec)).call p.ledger
        with ⟨⟨e⟩ | ⟨⟨⟩⟩, ledger⟩
      · have hnot : ¬ (PortfolioLedger.Call.applyMany (fills.map fun r => costFill r spec)).method.Returns
            p.ledger := by
          rintro ⟨u, hu⟩
          rw [PortfolioLedger.Call.method, hcall] at hu
          cases hu
        have hsame := PortfolioLedger.after_of_not_returns _ hnot
        rw [after, PortfolioLedger.Call.method, hcall] at hsame
        dsimp only at hsame ⊢
        rw [hsame]
        exact ⟨hs.ledger, hsym⟩
      · obtain ⟨-, hall⟩ := PortfolioLedger.call_applyMany_eq_ok.mp hcall
        have hkept := @PortfolioLedger.applyAll_induction _ _
          (fun _ s => PortfolioLedger.Kept spec s) (fun _ _ _ hk h => hk.posted h) _ [] hs.ledger hall
        exact ⟨hkept, hsym⟩

theorem run_emitted (calls : List PaperFillEngine.Call) (hs : p.Sound spec) :
    (PaperFillEngine.runFrom calls p.engine).1 =
        ((run calls p).1.flatMap Outcome.fills).map (fun f => f.reference) ∧
      (PaperFillEngine.runFrom calls p.engine).2 = (run calls p).2.engine := by
  induction calls generalizing p with
  | nil => exact ⟨rfl, rfl⟩
  | cons c calls ih =>
    obtain ⟨hfills, hengine⟩ := submit_emitted hs c
    obtain ⟨ihfills, ihengine⟩ := ih (hs.submit c)
    rw [runFrom_cons, hengine, hfills, ihfills, ihengine, run]
    simp

/-- As long as no batch is refused, engine and ledger hold the same, in any order of calls. -/
theorem together_run (calls : List PaperFillEngine.Call) (hs : p.Sound spec) (h : p.Together)
    (hr : ∀ o ∈ (run calls p).1, ∀ fills e, o ≠ .refused fills e) :
    (run calls p).2.Sound spec ∧ (run calls p).2.Together := by
  induction calls generalizing p with
  | nil => exact ⟨hs, h⟩
  | cons c calls ih =>
    have hnext : (p.submit c).2.Together := by
      obtain ⟨-, hf⟩ := submit_follows hs (.inl h) c
      have ho := hr (p.submit c).1 (by rw [run]; exact List.mem_cons_self)
      generalize (p.submit c).1 = o at hf ho
      cases o with
      | raised e =>
        rw [show (p.submit c).2 = p from hf]
        exact h
      | uncosted e => exact hf.elim
      | idle => exact h.of_openQuantity hf.1 hf.2
      | applied fills => exact hf.1
      | refused fills e => exact (ho fills e rfl).elim
    exact ih (hs.submit c) hnext fun o ho => hr o (by rw [run]; exact List.mem_cons_of_mem _ ho)

theorem sound_init (spec : BacktestSpec) : (init spec).Sound spec :=
  ⟨PortfolioLedger.kept_init spec, rfl⟩

theorem together_init (spec : BacktestSpec) : (init spec).Together :=
  together_of_flat rfl fun h => by
    rw [PortfolioLedger.hasPosition, lt_def] at h
    exact lt_irrefl _ h

theorem history_init (spec : BacktestSpec) : History spec [] (init spec) :=
  ⟨sound_init spec, .inl (together_init spec), fun pre fills e post h => by simp at h⟩

/-- The engine alone, after any calls. -/
structure EngineRun (symbol : Symbol) (calls : List PaperFillEngine.Call) : Prop where
  /-- Entries and exits take turns from an entry on, each exit with the quantity entered. -/
  alternates : PaperFillEngine.Alternates none
    (PaperFillEngine.runFrom calls (.init symbol)).1
    (PaperFillEngine.runFrom calls (.init symbol)).2.openQuantity
  few : ∀ c fills t,
    (PaperFillEngine.process c).call (PaperFillEngine.runFrom calls (.init symbol)).2 =
      (.ok fills, t) →
    fills.length ≤ 2 ∧ fills.countP (fun r => r.action = .exitLong) ≤ 1
  unchanged : ∀ c e t,
    (PaperFillEngine.process c).call (PaperFillEngine.runFrom calls (.init symbol)).2 =
      (.error e, t) →
    t = (PaperFillEngine.runFrom calls (.init symbol)).2

/-- The engine and the ledger, after any calls. -/
structure SessionRun (spec : BacktestSpec) (calls : List PaperFillEngine.Call) : Prop where
  engine : (run calls (init spec)).2.engine = (PaperFillEngine.runFrom calls (.init spec.symbol)).2
  fills : ((run calls (init spec)).1.flatMap Outcome.fills).map (fun f => f.reference) =
    (PaperFillEngine.runFrom calls (.init spec.symbol)).1
  costed : ∀ e, .uncosted e ∉ (run calls (init spec)).1
  /-- Up to the first refusal, which is for insufficient cash or a late event. -/
  unrefused : (∀ o ∈ (run calls (init spec)).1, ∀ fills e, o ≠ .refused fills e) →
    ((run calls (init spec)).2.engine.hasPosition ↔ (run calls (init spec)).2.ledger.hasPosition) ∧
      ∀ c fills e, ((run calls (init spec)).2.submit c).1 = .refused fills e →
        (run calls (init spec)).2.ledger.Before c.event.decisionTimeMs →
          e = PortfolioLedger.insufficientCash ∧ Opens fills
  /-- In the order of time, also after refusals. -/
  increasing : Increasing calls →
    (((run calls (init spec)).2.engine.hasPosition ↔
        (run calls (init spec)).2.ledger.hasPosition) ∨
      EntryRefused (run calls (init spec)).1 ∧ (run calls (init spec)).2.Waiting) ∧
    Reasoned (run calls (init spec)).1

theorem uncosted_not_mem_run (calls : List PaperFillEngine.Call) (hs : p.Sound spec) :
    ∀ e, .uncosted e ∉ (run calls p).1 := by
  induction calls generalizing p with
  | nil => exact fun e => List.not_mem_nil
  | cons c calls ih =>
    intro e he
    rcases List.mem_cons.mp he with he | he
    · rcases submit_cases hs c with ⟨e', -, h⟩ | ⟨fills, engine, -, -, -, ⟨-, h⟩ | ⟨-, h⟩⟩
      · rw [h] at he
        cases he
      · rw [h] at he
        cases he
      · rw [h, book] at he
        split at he <;> cases he
    · exact ih (hs.submit c) e he

theorem engineRun (symbol : Symbol) (calls : List PaperFillEngine.Call) :
    EngineRun symbol calls where
  alternates := PaperFillEngine.alternates_runFrom calls (.init symbol)
  few _ _ _ h := (PaperFillEngine.call_process_eq_ok h).2.length_le
  unchanged _ _ _ h := PaperFillEngine.call_process_eq_error h

theorem sessionRun (spec : BacktestSpec) (calls : List PaperFillEngine.Call) :
    SessionRun spec calls where
  engine := (run_emitted calls (sound_init spec)).2.symm
  fills := (run_emitted calls (sound_init spec)).1.symm
  costed := uncosted_not_mem_run calls (sound_init spec)
  unrefused hr := by
    obtain ⟨hs, ht⟩ := together_run calls (sound_init spec) (together_init spec) hr
    refine ⟨ht.agree, fun c fills e he hbefore => ?_⟩
    obtain ⟨-, hf⟩ := submit_follows hs (.inl ht) c
    rw [he] at hf
    obtain ⟨h1, h2, -⟩ := hf.2.1 ht hbefore
    exact ⟨h1, h2⟩
  increasing hsorted := by
    have h := (history_init spec).run calls hsorted fun c _ => before_init spec _
    rw [List.nil_append] at h
    exact ⟨h.position.imp_left Together.agree, h.reasoned⟩

/-- **Fill engine and ledger lockstep.** -/
theorem fill_engine_ledger_lockstep (symbol : Symbol) (spec : BacktestSpec)
    (calls : List PaperFillEngine.Call) : EngineRun symbol calls ∧ SessionRun spec calls :=
  ⟨engineRun symbol calls, sessionRun spec calls⟩

def firstEvent : DecisionEvent where
  sequence := 0
  decisionTimeMs := 14400000
  eligibleFillOpenTimeMs := 14400000
  snapshot := .earliest
  valid := by decide

def firstCall (intent : PaperIntent) : PaperFillEngine.Call where
  event := firstEvent
  intent := intent
  fillCandle := ⟨Candle.flat .btcusdt .h1 14400000 "100", by decide⟩

def firstEntry : PaperFillEngine.Call :=
  firstCall ⟨⟨.enterLong, 14400000, some "1", some "90", some "110"⟩, by decide⟩

def firstExit : PaperFillEngine.Call :=
  firstCall ⟨{ action := .exitLong, decisionTimeMs := 14400000 }, by decide⟩

/-- Ten times the cash of the specification. -/
def wideEntry : PaperFillEngine.Call :=
  firstCall ⟨⟨.enterLong, 14400000, some "1000", some "90", some "110"⟩, by decide⟩

def hourSpec : BacktestSpec where
  symbol := .btcusdt
  startTimeMs := 14400000
  endTimeMs := 18000000
  valid := by decide

/-- A refused entry stays with the engine, and a repeated event repeats its fill. -/
theorem not_lockstep_of_refused :
    (¬ ∀ (spec : BacktestSpec) (calls : List PaperFillEngine.Call),
      (run calls (init spec)).2.engine.hasPosition ↔ (run calls (init spec)).2.ledger.hasPosition) ∧
    ¬ ∀ (spec : BacktestSpec) (calls : List PaperFillEngine.Call) (fills : List CostedFill)
      (e : PortfolioError), .refused fills e ∈ (run calls (init spec)).1 →
        e = PortfolioLedger.insufficientCash := by
  constructor
  · intro law
    have hlong : (run [wideEntry] (init hourSpec)).2.engine.hasPosition := by decide +kernel
    have hflat : ¬ (run [wideEntry] (init hourSpec)).2.ledger.hasPosition := by decide +kernel
    exact hflat ((law hourSpec [wideEntry]).mp hlong)
  · intro law
    have hrefused : (run [firstEntry, firstExit, firstEntry] (init hourSpec)).1.any (fun o =>
        match o with
        | .refused _ e => e = ⟨"Costed fill was already applied"⟩
        | _ => false) = true := by decide +kernel
    obtain ⟨o, ho, he⟩ := List.any_eq_true.mp hrefused
    cases o with
    | refused fills e =>
      have hcash := law hourSpec _ fills e ho
      have he : e = ⟨"Costed fill was already applied"⟩ := by simpa using he
      rw [he] at hcash
      exact absurd hcash (by decide)
    | _ => cases he

end PaperSession

end TradingLab
