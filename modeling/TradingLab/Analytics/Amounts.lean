import TradingLab.Analytics.Reconstruction
import TradingLab.Decimal.Places

/-!
# The amounts of a reconstruction

What was read once is read again as the same number. The trades of a reconstruction
hold the sums of their fills, as these come out in the wide context.
-/

namespace TradingLab

open Decimal List

namespace Analytics

def amount (value : String) : Decimal :=
  match Numeral.ofString value with
  | some (.finite d) => d
  | _ => 0

def Reads (value : String) : Prop := Numeral.ofString value = some (.finite (amount value))

instance (value : String) : Decidable (Reads value) := by
  unfold Reads
  infer_instance

variable {value : String} {d : Decimal} {symbol : Symbol}

theorem reads_of_ofString
    (h : Numeral.ofString value = some (.finite d)) : Reads value ∧ amount value = d := by
  have hamount : amount value = d := by
    unfold amount
    rw [h]
  exact ⟨by rw [Reads, h, hamount], hamount⟩

structure Canonical (value : String) : Prop where
  plain : plainDecimalPattern value = true
  reads : Reads value

theorem _decimal_eq_ok {label : String} :
    _decimal value label = .ok d ↔ Canonical value ∧ amount value = d := by
  constructor
  · intro h
    unfold _decimal at h
    split at h
    · rename_i hplain
      split at h
      · rename_i n hn
        cases h
        obtain ⟨hreads, hamount⟩ := reads_of_ofString hn
        exact ⟨⟨hplain, hreads⟩, hamount⟩
      · cases h
      · cases h
    · cases h
  · rintro ⟨⟨hplain, hreads⟩, rfl⟩
    unfold _decimal
    rw [if_pos hplain, hreads]

theorem Canonical._decimal_eq (h : Canonical value) (label : String) :
    _decimal value label = .ok (amount value) := _decimal_eq_ok.mpr ⟨h, rfl⟩

theorem Canonical.exponent_le (h : Canonical value) :
    (amount value).exponent ≤ 0 := by
  have hne : 0 < value.length := by
    rcases Nat.eq_zero_or_pos value.length with hzero | hpos
    · have hempty : value = "" := String.length_eq_zero_iff.mp hzero
      subst hempty
      exact absurd h.plain (by decide)
    · exact hpos
  rw [Numeral.eq_ofText_of_ofString hne h.plain h.reads]
  exact (signedText_bounds hne h.plain).2.1

theorem Canonical.places {f : ℕ} (h : Canonical value)
    (hlow : -(f : ℤ) ≤ (amount value).exponent) : Places f (amount value) :=
  ⟨hlow, h.exponent_le⟩

theorem moderate_of_places {f b : ℕ} (h : Places f d) (hlt : |d.toRat| < 10 ^ b)
    (hroom : f + b ≤ decimalPrecision) : Moderate decimalPrecision d := by
  have hlow := h.low
  have hhigh := h.high
  have hdigits : digits d.coefficient ≤ decimalPrecision :=
    digits_le_of_lt_pow ((coefficient_lt hlow hlt).trans_le
      (Nat.pow_le_pow_right (by norm_num) hroom)) (by decide)
  exact ⟨by omega, by omega, hdigits⟩

theorem reads_fixed {n : ℕ} (h : Moderate n d) (hn : n ≤ 1000000000) :
    Reads d.fixed ∧ (amount d.fixed).toRat = d.toRat := by
  obtain ⟨d', hread, hvalue⟩ := Numeral.ofString_fixed h hn
  obtain ⟨hreads, hamount⟩ := reads_of_ofString hread
  exact ⟨hreads, by rw [hamount, hvalue]⟩

theorem amount_fixed {f b : ℕ} (h : Places f d) (hlt : |d.toRat| < 10 ^ b)
    (hroom : f + b ≤ decimalPrecision) : Reads d.fixed ∧ amount d.fixed = d := by
  have hmoderate := moderate_of_places h hlt hroom
  have hlow := hmoderate.low
  have hdigits := hmoderate.digits
  apply reads_of_ofString
  refine Numeral.ofString_fixed_of_nonpos h.high ?_ ?_
  · have := h.high
    unfold adjusted maxEmax
    unfold decimalPrecision at hdigits
    omega
  · unfold minEtiny
    unfold decimalPrecision at hlow
    omega

structure AcceptedTradeFill.Sound (f : AcceptedTradeFill) : Prop where
  gross : Canonical f.grossQuote ∧ 0 < (amount f.grossQuote).toRat
  fee : Canonical f.feeQuote ∧ 0 ≤ (amount f.feeQuote).toRat
  slippage : Canonical f.slippageQuote ∧ 0 ≤ (amount f.slippageQuote).toRat
  cash : Canonical f.cashDelta
  entry : f.action = .enterLong → (amount f.cashDelta).toRat < 0

theorem AcceptedTradeFill.sound (f : AcceptedTradeFill) : f.Sound := by
  have h := f.valid
  unfold AcceptedTradeFill.Fields.postInit at h
  simp only [bind_eq_ok, _decimal_eq_ok] at h
  obtain ⟨_, -, _, -, _, -, _, -, _, -, _, -, _, -, _, -, _, -, _, ⟨hgross, rfl⟩, _, ⟨hfee, rfl⟩, _,
    ⟨hslippage, rfl⟩, _, -, _, -, _, ⟨hcash, rfl⟩, _, -, _, hbounds, haction⟩ := h
  rw [raiseIf_eq_ok] at hbounds
  simp only [not_or, le_def, lt_def, not_le, not_lt, toRat_zero] at hbounds
  obtain ⟨-, -, -, hgross0, hfee0, hslippage0, -, -⟩ := hbounds
  refine ⟨⟨hgross, hgross0⟩, ⟨hfee, hfee0⟩, ⟨hslippage, hslippage0⟩, hcash, ?_⟩
  intro hentry
  rw [hentry] at haction
  simp only [raiseIf_eq_ok, not_or, le_def, not_le, toRat_zero] at haction
  exact haction.1

structure CompletedPaperTrade.Sound (t : CompletedPaperTrade) : Prop where
  index : 0 ≤ t.tradeIndex
  entry : t.entry.action = .enterLong
  holding : 0 ≤ t.holdingTimeMs
  realized : Canonical t.realizedPnlQuote
  fee : Canonical t.totalFeeQuote
  slippage : Canonical t.totalSlippageQuote

theorem CompletedPaperTrade.sound (t : CompletedPaperTrade) : t.Sound := by
  have h := t.valid
  unfold CompletedPaperTrade.Fields.postInit at h
  simp only [bind_eq_ok, _decimal_eq_ok] at h
  obtain ⟨_, hidentity, _, -, _, -, _, -, _, -, _, -, _, -, _, ⟨hrealized, -⟩, _, ⟨hfee, -⟩, _,
    ⟨hslippage, -⟩, -⟩ := h
  rw [raiseIf_eq_ok] at hidentity
  simp only [not_or, not_lt, not_not] at hidentity
  obtain ⟨hindex, -, -, hentry, -, -, htime, hholding⟩ := hidentity
  exact ⟨hindex, hentry, by omega, hrealized, hfee, hslippage⟩

/-- The sums of the two fills, as the wide context gives them. -/
structure CompletedPaperTrade.Sums (t : CompletedPaperTrade) : Prop where
  realized : t.realizedPnlQuote =
    (add decimalPrecision (amount t.entry.cashDelta) (amount t.exit.cashDelta)).fixed
  fee : t.totalFeeQuote =
    (add decimalPrecision (amount t.entry.feeQuote) (amount t.exit.feeQuote)).fixed
  slippage : t.totalSlippageQuote =
    (add decimalPrecision (amount t.entry.slippageQuote) (amount t.exit.slippageQuote)).fixed

theorem sums_of_completedTrade {index : ℕ} {entry fill : AcceptedTradeFill}
    {t : CompletedPaperTrade} (h : _completedTrade symbol index entry fill = .ok t) : t.Sums := by
  unfold _completedTrade at h
  simp only [bind_eq_ok, _decimal_eq_ok] at h
  obtain ⟨_, ⟨-, rfl⟩, _, ⟨-, rfl⟩, _, ⟨-, rfl⟩, _, ⟨-, rfl⟩, _, ⟨-, rfl⟩, _, ⟨-, rfl⟩, h⟩ := h
  obtain ⟨_, rfl⟩ := construct_eq_ok.mp h
  exact ⟨rfl, rfl, rfl⟩

/-- The trades of the first fills of a source. -/
structure Episodes.Paired (s : Episodes) (fills : ℕ) : Prop where
  sums : ∀ t ∈ s.completed, t.Sums
  length : s.completed.length ≤ fills

theorem Episodes.Paired.next {s s' : Episodes} {fills : ℕ} {item : FillEvent}
    (h : s.Paired fills) (hnext : s.next symbol item = .ok s') : s'.Paired (fills + 1) := by
  unfold Episodes.next at hnext
  obtain ⟨fill, -, hnext⟩ := bind_eq_ok.mp hnext
  dsimp only at hnext
  split at hnext
  · cases hnext
  · cases hnext
    exact ⟨h.sums, h.length.trans (Nat.le_succ _)⟩
  · cases hnext
  · obtain ⟨-, hnext⟩ := raiseIf_bind_eq_ok.mp hnext
    obtain ⟨trade, htrade, hnext⟩ := bind_eq_ok.mp hnext
    cases hnext
    constructor
    · intro t ht
      rcases mem_append.mp ht with ht | ht
      · exact h.sums t ht
      · rw [mem_singleton.mp ht]
        exact sums_of_completedTrade htrade
    · simpa using h.length

theorem paired_of_buildEpisodes {items : List FillEvent} {s : Episodes}
    (h : _buildEpisodes symbol items = .ok s) : s.Paired items.length := by
  have hrun : ∀ (items : List FillEvent) (start : Episodes) (fills : ℕ), start.Paired fills →
      items.foldlM (Episodes.next symbol) start = .ok s → s.Paired (fills + items.length) := by
    intro items
    induction items with
    | nil =>
      intro start fills hstart hrun
      cases hrun
      exact hstart
    | cons item items ih =>
      intro start fills hstart hrun
      rw [foldlM_cons] at hrun
      obtain ⟨t, ht, hrun⟩ := bind_eq_ok.mp hrun
      have := ih t (fills + 1) (hstart.next ht) hrun
      rwa [length_cons, Nat.add_comm items.length 1, ← Nat.add_assoc]
  have hstart : (⟨[], none, []⟩ : Episodes).Paired 0 :=
    ⟨fun t ht => absurd ht not_mem_nil, le_rfl⟩
  simpa using hrun items ⟨[], none, []⟩ 0 hstart h

structure PaperTradeReconstruction.Sound (r : PaperTradeReconstruction) : Prop where
  sums : ∀ t ∈ r.completed, t.Sums
  length : r.completed.length ≤ maxRecords
  indexes : r.completed.map (·.tradeIndex) = (List.range r.completed.length).map Int.ofNat
  timeline : Sha256.isHexDigest r.timelineSha256 = true

theorem PaperTradeReconstruction.sound {e : P5Evidence} {r : PaperTradeReconstruction}
    (h : reconstructPaperTrades e = .ok r) : r.Sound := by
  unfold reconstructPaperTrades at h
  obtain ⟨s, hs, h⟩ := bind_eq_ok.mp h
  obtain ⟨portfolio, -, h⟩ := bind_eq_ok.mp h
  obtain ⟨-, h⟩ := unit_bind_eq_ok.mp h
  obtain ⟨openTrade, -, h⟩ := bind_eq_ok.mp h
  dsimp only at h
  obtain ⟨hvalid, hr⟩ := construct_eq_ok.mp h
  have hpaired := paired_of_buildEpisodes hs
  have hcompleted : r.completed = s.completed := by rw [← hr]
  have hfields := r.valid
  unfold PaperTradeReconstruction.Fields.postInit at hfields
  obtain ⟨-, hfields⟩ := raiseIf_bind_eq_ok.mp hfields
  obtain ⟨htimeline, hfields⟩ := unit_bind_eq_ok.mp hfields
  obtain ⟨hindexes, -⟩ := raiseIf_bind_eq_ok.mp hfields
  refine ⟨?_, ?_, not_not.mp hindexes, not_not.mp (raiseIf_eq_ok.mp htimeline)⟩
  · rw [hcompleted]
    exact hpaired.sums
  · rw [hcompleted]
    exact hpaired.length.trans e.bounded

namespace CompletedPaperTrade

/-- The amounts of the two fills of a trade. -/
def amounts (t : CompletedPaperTrade) : List Decimal :=
  [t.entry.grossQuote, t.exit.grossQuote, t.entry.cashDelta, t.exit.cashDelta, t.entry.feeQuote,
    t.exit.feeQuote, t.entry.slippageQuote, t.exit.slippageQuote].map amount

/-- The cash that moves is what is traded and what the fees take. -/
structure PaysItsCosts (t : CompletedPaperTrade) : Prop where
  entry : (amount t.entry.cashDelta).toRat =
    -(amount t.entry.grossQuote).toRat - (amount t.entry.feeQuote).toRat
  exit : (amount t.exit.cashDelta).toRat =
    (amount t.exit.grossQuote).toRat - (amount t.exit.feeQuote).toRat

end CompletedPaperTrade

/-- At most `f` digits after the point, and all amounts together below `10^b`. -/
structure AmountsFit (f b : ℕ) (trades : List CompletedPaperTrade) : Prop where
  room : f + b ≤ decimalPrecision
  places : ∀ t ∈ trades, ∀ d ∈ t.amounts, -(f : ℤ) ≤ d.exponent
  total : magnitude (trades.flatMap CompletedPaperTrade.amounts) < 10 ^ b

section Fit
variable {f b : ℕ} {trades : List CompletedPaperTrade} {t : CompletedPaperTrade}

theorem magnitude_flatMap {α : Type} (g : α → List Decimal) (xs : List α) :
    magnitude (xs.flatMap g) = (xs.map fun x => magnitude (g x)).sum := by
  induction xs with
  | nil => rfl
  | cons x xs ih =>
    rw [flatMap_cons, magnitude, map_append, sum_append, map_cons, sum_cons,
      ← ih]
    rfl

theorem magnitude_nonneg (ds : List Decimal) : 0 ≤ magnitude ds := by
  unfold magnitude
  apply sum_nonneg
  intro x hx
  obtain ⟨d, -, rfl⟩ := mem_map.mp hx
  exact abs_nonneg _

theorem magnitude_le_of_mem {α : Type} {g : α → List Decimal} {xs : List α} {x : α} (hx : x ∈ xs) :
    magnitude (g x) ≤ magnitude (xs.flatMap g) := by
  rw [magnitude_flatMap]
  refine single_le_sum ?_ _ (mem_map_of_mem hx)
  intro y hy
  obtain ⟨z, -, rfl⟩ := mem_map.mp hy
  exact magnitude_nonneg _

theorem CompletedPaperTrade.magnitude_amounts (t : CompletedPaperTrade) : magnitude t.amounts =
    |(amount t.entry.grossQuote).toRat| + |(amount t.exit.grossQuote).toRat| +
      |(amount t.entry.cashDelta).toRat| + |(amount t.exit.cashDelta).toRat| +
      |(amount t.entry.feeQuote).toRat| + |(amount t.exit.feeQuote).toRat| +
      |(amount t.entry.slippageQuote).toRat| + |(amount t.exit.slippageQuote).toRat| := by
  simp only [magnitude, amounts, map_cons, map_nil, sum_cons, sum_nil]
  ring

/-- A sum of two texts of a trade is written out exactly. -/
theorem amount_sum {value value' : String} (hroom : f + b ≤ decimalPrecision)
    (h : Places f (amount value)) (h' : Places f (amount value'))
    (hlt : |(amount value).toRat + (amount value').toRat| < 10 ^ b) :
    (amount (add decimalPrecision (amount value) (amount value')).fixed).toRat =
        (amount value).toRat + (amount value').toRat ∧
      Places f (amount (add decimalPrecision (amount value) (amount value')).fixed) := by
  obtain ⟨hvalue, hplaces⟩ := h.add h' (by decide) hroom hlt
  obtain ⟨-, heq⟩ := amount_fixed hplaces (by rwa [hvalue]) hroom
  rw [heq]
  exact ⟨hvalue, hplaces⟩

/-- The values of a trade whose amounts fit. -/
structure CompletedPaperTrade.Exact (f : ℕ) (t : CompletedPaperTrade) : Prop where
  realized : (amount t.realizedPnlQuote).toRat =
    (amount t.entry.cashDelta).toRat + (amount t.exit.cashDelta).toRat
  fee : (amount t.totalFeeQuote).toRat =
    (amount t.entry.feeQuote).toRat + (amount t.exit.feeQuote).toRat
  slippage : (amount t.totalSlippageQuote).toRat =
    (amount t.entry.slippageQuote).toRat + (amount t.exit.slippageQuote).toRat
  cashOut : (neg decimalPrecision (amount t.entry.cashDelta)).toRat =
    -(amount t.entry.cashDelta).toRat
  places : Places f (amount t.realizedPnlQuote) ∧ Places f (amount t.totalFeeQuote) ∧
    Places f (amount t.totalSlippageQuote) ∧ Places f (amount t.entry.grossQuote) ∧
    Places f (amount t.exit.grossQuote) ∧
    Places f (neg decimalPrecision (amount t.entry.cashDelta))

theorem AmountsFit.lt (h : AmountsFit f b trades) (ht : t ∈ trades) :
    magnitude t.amounts < 10 ^ b := (magnitude_le_of_mem ht).trans_lt h.total

theorem AmountsFit.exact (h : AmountsFit f b trades) (ht : t ∈ trades) (hs : t.Sums) :
    t.Exact f := by
  have hlt := h.lt ht
  rw [t.magnitude_amounts] at hlt
  have hplaces : ∀ value, amount value ∈ t.amounts → Canonical value → Places f (amount value) :=
    fun value hvalue hcanonical => hcanonical.places (h.places t ht _ hvalue)
  have hentry := t.entry.sound
  have hexit := t.exit.sound
  have hcash := hplaces t.entry.cashDelta (by simp [CompletedPaperTrade.amounts]) hentry.cash
  have hexitCash := hplaces t.exit.cashDelta (by simp [CompletedPaperTrade.amounts]) hexit.cash
  have hfee := hplaces t.entry.feeQuote (by simp [CompletedPaperTrade.amounts]) hentry.fee.1
  have hexitFee := hplaces t.exit.feeQuote (by simp [CompletedPaperTrade.amounts]) hexit.fee.1
  have hslippage :=
    hplaces t.entry.slippageQuote (by simp [CompletedPaperTrade.amounts]) hentry.slippage.1
  have hexitSlippage :=
    hplaces t.exit.slippageQuote (by simp [CompletedPaperTrade.amounts]) hexit.slippage.1
  have hnonneg := fun value : String => abs_nonneg (amount value).toRat
  have h1 := hnonneg t.entry.grossQuote
  have h2 := hnonneg t.exit.grossQuote
  have h3 := hnonneg t.entry.cashDelta
  have h4 := hnonneg t.exit.cashDelta
  have h5 := hnonneg t.entry.feeQuote
  have h6 := hnonneg t.exit.feeQuote
  have h7 := hnonneg t.entry.slippageQuote
  have h8 := hnonneg t.exit.slippageQuote
  obtain ⟨hrealized, hrealizedPlaces⟩ := amount_sum h.room hcash hexitCash
    ((abs_add_le _ _).trans_lt (by linarith))
  obtain ⟨hfees, hfeesPlaces⟩ := amount_sum h.room hfee hexitFee
    ((abs_add_le _ _).trans_lt (by linarith))
  obtain ⟨hslippages, hslippagesPlaces⟩ := amount_sum h.room hslippage hexitSlippage
    ((abs_add_le _ _).trans_lt (by linarith))
  obtain ⟨hout, houtPlaces⟩ := hcash.neg (by decide : 0 < decimalPrecision) h.room (by linarith)
  rw [← hs.realized] at hrealized hrealizedPlaces
  rw [← hs.fee] at hfees hfeesPlaces
  rw [← hs.slippage] at hslippages hslippagesPlaces
  exact ⟨hrealized, hfees, hslippages, hout, hrealizedPlaces, hfeesPlaces, hslippagesPlaces,
    hplaces _ (by simp [CompletedPaperTrade.amounts]) hentry.gross.1,
    hplaces _ (by simp [CompletedPaperTrade.amounts]) hexit.gross.1,
    houtPlaces⟩

end Fit

end Analytics

end TradingLab
