import TradingLab.StrategyLab.AblationRefinement
import TradingLab.StrategyLab.Techniques

/-!
# The law of the techniques

The two candidates of the fourth lab take the stop of an entry from a true range with
256 digits and write it as it is, where a setup takes texts of forty digits: what they
should enter they refuse with an error, unless the level fits by chance.
-/

namespace TradingLab

open Decimal

namespace StrategyLab

/-- The stop of an entry: some true ranges below the close. -/
def stopLevel (close volatility multiple : Decimal) : Decimal :=
  sub decimalPrecision close (mul decimalPrecision volatility multiple)

def Protects (close stop : Decimal) : Prop := 0 < stop.toRat ∧ stop.toRat < close.toRat

structure SetupLaw (close stop : Decimal) (setup : LongSetup) : Prop where
  invalidation_pos : 0 < (ofText setup.invalidationPrice).toRat
  invalidation_lt : (ofText setup.invalidationPrice).toRat < (ofText setup.referencePrice).toRat
  reference_lt : (ofText setup.referencePrice).toRat < (ofText setup.targetPrice).toRat
  reference : (ofText setup.referencePrice).toRat = close.toRat
  invalidation : (ofText setup.invalidationPrice).toRat = stop.toRat
  reward : (ofText setup.targetPrice).toRat - (ofText setup.referencePrice).toRat =
    2 * ((ofText setup.referencePrice).toRat - (ofText setup.invalidationPrice).toRat)

/-- The texts of an entry. -/
def entryFields (close stop : Decimal) : LongSetup.Fields where
  referencePrice := _plain close
  invalidationPrice := _plain stop
  targetPrice := _plain (add decimalPrecision close
    (mul decimalPrecision (sub decimalPrecision close stop) Momentum.rewardRisk))

section
variable {close stop : Decimal}

theorem entryFields_eq (hclose : 0 < close.toRat) (h : Protects close stop) :
    entryFields close stop = Ablation.bracket close stop :=
  Ablation.bracket_texts hclose h.1 h.2

/-- A setup is built exactly from levels that fit. -/
theorem build_iff (hclose : Ablation.Priced close) (h : Protects close stop) :
    (∃ setup, LongSetup.build (entryFields close stop) = .ok setup) ↔
      Ablation.LevelFits close.toRat stop.toRat := by
  rw [← Ablation.bracket_eq_ok hclose h.1 h.2, entryFields_eq hclose.pos h]
  constructor
  · rintro ⟨setup, hsetup⟩
    exact (construct_eq_ok.mp hsetup).1
  · exact fun hvalid => ⟨⟨_, hvalid⟩, construct_eq_ok.mpr ⟨hvalid, rfl⟩⟩

theorem setupLaw_of_build (hclose : Ablation.Priced close) (h : Protects close stop)
    {setup : LongSetup} (hsetup : LongSetup.build (entryFields close stop) = .ok setup) :
    SetupLaw close stop setup := by
  have hfits := (build_iff hclose h).mp ⟨setup, hsetup⟩
  obtain ⟨hvalid, rfl⟩ := construct_eq_ok.mp hsetup
  obtain ⟨-, hpos, hinvalidation, hreference⟩ := LongSetup.facts ⟨_, hvalid⟩
  have hclose' : (ofText (entryFields close stop).referencePrice).toRat = close.toRat :=
    Ablation.toRat_plain close
  have hstop : (ofText (entryFields close stop).invalidationPrice).toRat = stop.toRat :=
    Ablation.toRat_plain stop
  have htarget : (ofText (entryFields close stop).targetPrice).toRat =
      3 * close.toRat - 2 * stop.toRat :=
    (Ablation.toRat_plain _).trans (Ablation.toRat_target hclose h.1 h.2 hfits.onGrid)
  rw [lt_def, toRat_zero] at hpos
  refine ⟨hpos, lt_def.mp hinvalidation, lt_def.mp hreference, hclose', hstop, ?_⟩
  rw [hclose', hstop, htarget]
  ring

end

theorem priced_latest (snapshot : Crisis.CrisisLabMarketSnapshot) :
    Ablation.Priced (ofText snapshot.latestPrimary.close) := by
  obtain ⟨-, -, -, hprices, -⟩ := snapshot.latestPrimary.facts
  obtain ⟨hpattern, hpos⟩ := hprices snapshot.latestPrimary.close (by simp)
  exact Ablation.priced_of_pattern hpattern hpos

theorem not_lt_iff {a b : Decimal} : ¬ a < b ↔ b ≤ a := by
  rw [lt_def, le_def, not_lt]

theorem not_le_iff {a b : Decimal} : ¬ a ≤ b ↔ b < a := by
  rw [lt_def, le_def, not_le]

theorem outside_iff_not_protects {close stop : Decimal} :
    (stop ≤ 0 ∨ sub decimalPrecision close stop ≤ 0) ↔ ¬ Protects close stop := by
  rw [Ablation.outside_iff]
  unfold Protects
  rw [not_and_or, not_lt, not_lt]

section
variable {δ : Type} {askOf : δ → Ask} {x : Except CellError δ} {close stop : Decimal}
  {entered : Prop}

/-- How a decision ends: nothing is entered against the rules, and by the rules a setup
is built, and decides. -/
inductive Decides (askOf : δ → Ask) (x : Except CellError δ) (close stop : Decimal)
    (entered : Prop) : Prop
  | declined {d : δ} (hnot : ¬ entered) (hx : x = .ok d) (hask : ∀ setup, askOf d ≠ .enter setup)
  | reached {decision : LongSetup → Except CellError δ} (hentered : entered)
      (hprotects : Protects close stop)
      (hx : x = ((LongSetup.build (entryFields close stop)).mapError .contract >>= decision))
      (hdecision : ∀ setup, ∃ d, decision setup = .ok d ∧ askOf d = .enter setup)

/-- What an evaluator promises of its decision. -/
structure Lawful (askOf : δ → Ask) (x : Except CellError δ) (close stop : Decimal)
    (entered : Prop) : Prop where
  returns : ∃ d, x = .ok d
  enters : ∀ d, x = .ok d → ((∃ setup, askOf d = .enter setup) ↔ entered)
  setup : ∀ d setup, x = .ok d → askOf d = .enter setup → SetupLaw close stop setup

/-- There is a decision exactly where the stop of an entry fits. -/
theorem Decides.returns_iff (h : Decides askOf x close stop entered)
    (hclose : Ablation.Priced close) :
    (∃ d, x = .ok d) ↔ (entered → Ablation.LevelFits close.toRat stop.toRat) := by
  cases h with
  | declined hnot hx _ => exact ⟨fun _ h => absurd h hnot, fun _ => ⟨_, hx⟩⟩
  | reached hentered hprotects hx hdecision =>
    rw [← build_iff hclose hprotects, hx]
    constructor
    · rintro ⟨d, hd⟩ _
      obtain ⟨setup, hsetup, -⟩ := bind_eq_ok.mp hd
      exact ⟨setup, mapError_eq_ok.mp hsetup⟩
    · intro h
      obtain ⟨setup, hsetup⟩ := h hentered
      obtain ⟨d, hd, -⟩ := hdecision setup
      exact ⟨d, bind_eq_ok.mpr ⟨setup, mapError_eq_ok.mpr hsetup, hd⟩⟩

/-- The promises are kept exactly where the stop of an entry fits. -/
theorem Decides.lawful_iff (h : Decides askOf x close stop entered)
    (hclose : Ablation.Priced close) :
    Lawful askOf x close stop entered ↔
      (entered → Ablation.LevelFits close.toRat stop.toRat) := by
  rw [← h.returns_iff hclose]
  refine ⟨fun hlawful => hlawful.returns, fun hreturns => ⟨hreturns, ?_, ?_⟩⟩
  · intro d hd
    cases h with
    | declined hnot hx hask =>
      cases hx.symm.trans hd
      exact ⟨fun ⟨setup, h⟩ => absurd h (hask setup), fun h => absurd h hnot⟩
    | reached hentered _ hx hdecision =>
      rw [hx] at hd
      obtain ⟨setup, -, hd⟩ := bind_eq_ok.mp hd
      obtain ⟨d', hd', hask⟩ := hdecision setup
      cases hd'.symm.trans hd
      exact ⟨fun _ => hentered, fun _ => ⟨setup, hask⟩⟩
  · intro d setup hd hask
    cases h with
    | declined _ hx hnone =>
      cases hx.symm.trans hd
      exact absurd hask (hnone setup)
    | reached _ hprotects hx hdecision =>
      rw [hx] at hd
      obtain ⟨built, hbuilt, hd⟩ := bind_eq_ok.mp hd
      obtain ⟨d', hd', hask'⟩ := hdecision built
      cases hd'.symm.trans hd
      cases hask'.symm.trans hask
      exact setupLaw_of_build hclose hprotects (mapError_eq_ok.mp hbuilt)

end

theorem number_eq (r : FeatureResult) (h : r.available) : r.number h = r.value.getD 0 := by
  unfold FeatureResult.number
  exact Option.get_eq_getD ..

namespace Momentum

variable {m : Measured} {close : Decimal}

def stop (m : Measured) (close : Decimal) : Decimal :=
  stopLevel close (m.volatility.value.getD 0) stopAtrMultiple

structure Enters (m : Measured) (close : Decimal) : Prop where
  entryReturn : m.entryReturn.available
  average : m.average.available
  strength : m.strength.available
  volatility : m.volatility.available
  risen : minimumEntryReturnFraction ≤ m.entryReturn.number entryReturn
  above : m.average.number average < close
  band : minimumRsi ≤ m.strength.number strength ∧ m.strength.number strength ≤ maximumRsi
  protects : Protects close (stop m close)

instance (m : Measured) (close : Decimal) : Decidable (Enters m close) :=
  decidable_of_iff
    (∃ (h : m.entryReturn.available) (i : m.average.available) (j : m.strength.available)
      (_ : m.volatility.available), minimumEntryReturnFraction ≤ m.entryReturn.number h ∧
      m.average.number i < close ∧
      (minimumRsi ≤ m.strength.number j ∧ m.strength.number j ≤ maximumRsi) ∧
      0 < (stop m close).toRat ∧ (stop m close).toRat < close.toRat)
    ⟨fun ⟨h, i, j, k, hrisen, habove, hband, hprotects⟩ =>
        ⟨h, i, j, k, hrisen, habove, hband, hprotects⟩,
      fun h => ⟨h.entryReturn, h.average, h.strength, h.volatility, h.risen, h.above, h.band,
        h.protects⟩⟩

theorem decide_ok (m : Measured) (ask : Ask) {reason : String} (h : reason ≠ "") :
    ∃ d, _decide m ask reason = .ok d ∧ d.ask = ask := by
  unfold _decide
  dsimp only
  refine ⟨⟨_, ?_⟩, construct_eq_ok.mpr ⟨?_, rfl⟩, rfl⟩
  · exact raiseIf_neg h
  · exact raiseIf_neg h

section
variable {stop : Decimal} {entered : Prop}

theorem decides_exit (hnot : ¬ entered) {reason : String} (h : reason ≠ "") :
    Decides (fun d => d.ask) (_decide m .exit reason) close stop entered := by
  obtain ⟨d, hd, hask⟩ := decide_ok m .exit h
  exact .declined hnot hd (by rw [hask]; nofun)

theorem decides_hold (hnot : ¬ entered) {reason : String} (h : reason ≠ "") :
    Decides (fun d => d.ask) (_decide m .hold reason) close stop entered := by
  obtain ⟨d, hd, hask⟩ := decide_ok m .hold h
  exact .declined hnot hd (by rw [hask]; nofun)

theorem decides_held (hnot : ¬ entered) :
    Decides (fun d => d.ask) (_held m) close stop entered := by
  unfold _held
  split
  · split
    · exact decides_exit hnot (by decide)
    · exact decides_hold hnot (by decide)
  · exact decides_hold hnot (by decide)

end

theorem decides_levels (hready : m.volatility.available) {entered : Prop}
    (hentered : entered ↔ Protects close (stop m close)) :
    Decides (fun d => d.ask) (_levels m close (m.volatility.number hready)) close (stop m close)
      entered := by
  rw [number_eq]
  change Decides _ (if stop m close ≤ 0 ∨ sub decimalPrecision close (stop m close) ≤ 0 then _
    else _) _ _ _
  by_cases hprotects : Protects close (stop m close)
  · rw [if_neg (mt outside_iff_not_protects.mp (not_not.mpr hprotects))]
    exact .reached (hentered.mpr hprotects) hprotects rfl
      fun setup => decide_ok m (.enter setup) (by decide)
  · rw [if_pos (outside_iff_not_protects.mpr hprotects)]
    exact decides_hold (mt hentered.mp hprotects) (by decide)

theorem decides_flat :
    Decides (fun d => d.ask) (_flat m close) close (stop m close) (Enters m close) := by
  unfold _flat
  split
  · rename_i hready
    dsimp only
    split
    · rename_i hrisen
      exact decides_hold (fun h => not_lt_iff.mpr h.risen hrisen) (by decide)
    · rename_i hrisen
      split
      · rename_i habove
        exact decides_hold (fun h => not_le_iff.mpr h.above habove) (by decide)
      · rename_i habove
        split
        · rename_i hband
          exact decides_hold (fun h => hband h.band) (by decide)
        · rename_i hband
          apply decides_levels
          constructor
          · exact fun h => h.protects
          · exact fun hprotects => ⟨hready.1, hready.2.1, hready.2.2.1, hready.2.2.2,
              not_lt_iff.mp hrisen, not_le_iff.mp habove, not_not.mp hband, hprotects⟩
  · rename_i hnot
    exact decides_hold (fun h => hnot ⟨h.entryReturn, h.average, h.strength, h.volatility⟩)
      (by decide)

theorem decides_evaluate {snapshot : Crisis.CrisisLabMarketSnapshot} {decisionTimeMs : ℤ}
    (inPosition : Bool) (hm : _measured snapshot.primary decisionTimeMs = .ok m) :
    Decides (fun d => d.ask) (_evaluate snapshot decisionTimeMs inPosition)
      (ofText snapshot.latestPrimary.close) (stop m (ofText snapshot.latestPrimary.close))
      (inPosition = false ∧ Enters m (ofText snapshot.latestPrimary.close)) := by
  unfold _evaluate
  rw [hm, ok_bind]
  cases inPosition with
  | true => exact decides_held fun h => nomatch h.1
  | false =>
    rw [if_neg Bool.false_ne_true, eq_self, true_and]
    exact decides_flat

end Momentum

namespace VolatilityExpansion

variable {m : Measured} {baseline : Option Decimal} {latest : Candle}

/-- The stop of an entry; there is none without a true range. -/
def stop (m : Measured) (latest : Candle) : Decimal :=
  stopLevel (ofText latest.close) (m.volatility.value.getD 0) stopAtrMultiple

structure Enters (m : Measured) (baseline : Option Decimal) (latest : Candle) : Prop where
  volatility : m.volatility.available
  boundary : m.boundary.available
  expanded : ∃ value, baseline = some value ∧ 0 < value ∧ minimumAtrExpansionRatio ≤
    quotient decimalPrecision (m.volatility.number volatility) value
  breakout : m.boundary.number boundary < ofText latest.close
  location : minimumCloseLocation ≤
    _closeLocation (ofText latest.close) (ofText latest.high) (ofText latest.low)
  near : ¬ _extended (ofText latest.close) (m.boundary.number boundary)
    (m.volatility.number volatility)
  protects : Protects (ofText latest.close) (stop m latest)

theorem decide_ok (ask : Ask) (ratio : Option Decimal) {reason : String} (h : reason ≠ "") :
    ∃ d, _decide ask reason ratio = .ok d ∧ d.ask = ask := by
  unfold _decide
  dsimp only
  refine ⟨⟨_, ?_⟩, construct_eq_ok.mpr ⟨?_, rfl⟩, rfl⟩
  · exact raiseIf_neg h
  · exact raiseIf_neg h

section
variable {close stop : Decimal} {entered : Prop} {ratio : Option Decimal}

theorem decides_exit (hnot : ¬ entered) {reason : String} (h : reason ≠ "") :
    Decides (fun d => d.ask) (_decide .exit reason ratio) close stop entered := by
  obtain ⟨d, hd, hask⟩ := decide_ok .exit ratio h
  exact .declined hnot hd (by rw [hask]; nofun)

theorem decides_hold (hnot : ¬ entered) {reason : String} (h : reason ≠ "") :
    Decides (fun d => d.ask) (_decide .hold reason ratio) close stop entered := by
  obtain ⟨d, hd, hask⟩ := decide_ok .hold ratio h
  exact .declined hnot hd (by rw [hask]; nofun)

theorem decides_held (hnot : ¬ entered) (value : Decimal) :
    Decides (fun d => d.ask) (_held value) close stop entered := by
  unfold _held
  split
  · exact decides_exit hnot (by decide)
  · exact decides_hold hnot (by decide)

end

theorem decides_levels (hready : m.volatility.available) (ratio : Decimal) {entered : Prop}
    (hentered : entered ↔ Protects (ofText latest.close) (stop m latest)) :
    Decides (fun d => d.ask)
      (_levels ratio (ofText latest.close) (m.volatility.number hready)) (ofText latest.close)
      (stop m latest) entered := by
  rw [number_eq]
  change Decides _ (if stop m latest ≤ 0 ∨
    sub decimalPrecision (ofText latest.close) (stop m latest) ≤ 0 then _ else _) _ _ _
  by_cases hprotects : Protects (ofText latest.close) (stop m latest)
  · rw [if_neg (mt outside_iff_not_protects.mp (not_not.mpr hprotects))]
    exact .reached (hentered.mpr hprotects) hprotects rfl
      fun setup => decide_ok (.enter setup) (some ratio) (by decide)
  · rw [if_pos (outside_iff_not_protects.mpr hprotects)]
    exact decides_hold (mt hentered.mp hprotects) (by decide)

theorem decides_flat {value : Decimal} (hready : m.volatility.available) (hvalue : 0 < value) :
    Decides (fun d => d.ask)
      (_flat m.boundary (quotient decimalPrecision (m.volatility.number hready) value)
        (m.volatility.number hready) latest) (ofText latest.close) (stop m latest)
      (Enters m (some value) latest) := by
  unfold _flat
  split
  · rename_i hboundary
    dsimp only
    split
    · rename_i hratio
      refine decides_hold (fun h => ?_) (by decide)
      obtain ⟨_, hsame, -, hexpanded⟩ := h.expanded
      cases hsame
      exact not_lt_iff.mpr hexpanded hratio
    · rename_i hratio
      split
      · rename_i hbreakout
        exact decides_hold (fun h => not_le_iff.mpr h.breakout hbreakout) (by decide)
      · rename_i hbreakout
        split
        · rename_i hquality
          refine decides_hold (fun h => ?_) (by decide)
          rcases hquality with hlocation | hextended
          · exact not_lt_iff.mpr h.location hlocation
          · exact h.near hextended
        · rename_i hquality
          rw [not_or] at hquality
          apply decides_levels
          constructor
          · exact fun h => h.protects
          · exact fun hprotects => ⟨hready, hboundary, ⟨value, rfl, hvalue, not_lt_iff.mp hratio⟩,
              not_le_iff.mp hbreakout, not_lt_iff.mp hquality.1, hquality.2, hprotects⟩
  · rename_i hnot
    exact decides_hold (fun h => hnot h.boundary) (by decide)

theorem decides_judged (inPosition : Bool) :
    Decides (fun d => d.ask) (_judged m baseline latest inPosition) (ofText latest.close)
      (stop m latest) (inPosition = false ∧ Enters m baseline latest) := by
  unfold _judged
  cases baseline with
  | none =>
    refine decides_hold (fun h => ?_) (by decide)
    obtain ⟨_, hsame, -⟩ := h.2.expanded
    cases hsame
  | some value =>
    dsimp only
    split
    · rename_i hready
      cases inPosition with
      | true => exact decides_held (fun h => by cases h.1) _
      | false =>
        rw [if_neg Bool.false_ne_true, eq_self, true_and]
        exact decides_flat hready.1 hready.2
    · rename_i hnot
      refine decides_hold (fun h => hnot ⟨h.2.volatility, ?_⟩) (by decide)
      obtain ⟨_, hsame, hpos, -⟩ := h.2.expanded
      cases hsame
      exact hpos

end VolatilityExpansion

/-- Both evaluators keep their promises exactly where the stop of an entry has the digits of
a setup. -/
theorem technique_law (snapshot : Crisis.CrisisLabMarketSnapshot) (decisionTimeMs : ℤ)
    (inPosition : Bool) :
    (∀ m, Momentum._measured snapshot.primary decisionTimeMs = .ok m →
      let close := ofText snapshot.latestPrimary.close
      (Lawful (fun d => d.ask) (Momentum._evaluate snapshot decisionTimeMs inPosition) close
          (Momentum.stop m close) (inPosition = false ∧ Momentum.Enters m close) ↔
        (inPosition = false ∧ Momentum.Enters m close →
          Ablation.LevelFits close.toRat (Momentum.stop m close).toRat))) ∧
    ∀ m, VolatilityExpansion._measured snapshot.primary decisionTimeMs = .ok m →
      let latest := snapshot.latestPrimary
      let close := ofText latest.close
      let entered := inPosition = false ∧ VolatilityExpansion.Enters m
        (VolatilityExpansion._atrBaseline snapshot.primary
          VolatilityExpansion.atrBaselinePeriodHours decisionTimeMs) latest
      (Lawful (fun d => d.ask)
          (VolatilityExpansion._evaluate snapshot decisionTimeMs inPosition) close
          (VolatilityExpansion.stop m latest) entered ↔
        (entered → Ablation.LevelFits close.toRat (VolatilityExpansion.stop m latest).toRat)) := by
  constructor
  · intro m hm
    exact (Momentum.decides_evaluate inPosition hm).lawful_iff (priced_latest snapshot)
  · intro m hm latest close entered
    refine Decides.lawful_iff ?_ (priced_latest snapshot)
    unfold VolatilityExpansion._evaluate
    rw [hm, ok_bind]
    exact VolatilityExpansion.decides_judged inPosition

/-- Opens and closes of hours that gain a quote and lose half of one by turns. -/
def climbPrices : List String :=
  ["100", "100", "101", "100.5", "101.5", "101", "102", "101.5", "102.5", "102", "103", "102.5",
    "103.5", "103", "104", "103.5", "104.5", "104", "105", "104.5", "105.5", "105", "106", "105.5",
    "106.5", "106"]

def climbEnd : ℤ := 360000000

def climbCandle (openTimeMs : ℤ) (first last : String) : Candle.Fields :=
  { Candle.flat .btcusdt .h1 openTimeMs first with
    high := if ofText first < ofText last then last else first
    low := if ofText first < ofText last then first else last
    close := last }

def climbFields : List Candle.Fields :=
  (climbPrices.zip climbPrices.tail).mapIdx fun i move =>
    climbCandle (climbEnd + (i - 25) * 3600000) move.1 move.2

theorem valid_climb : ∀ f ∈ climbFields, f.postInit = .ok () := by decide +kernel

def climbSnapshot : Crisis.CrisisLabMarketSnapshot where
  symbol := .btcusdt
  decisionTimeMs := climbEnd
  primary := climbFields.attach.map fun f => ⟨f.1, valid_climb f.1 f.2⟩
  context := [⟨Candle.flat .btcusdt .m15 (climbEnd - 900000) "106", by decide⟩]
  regime := [⟨Candle.flat .btcusdt .h4 (climbEnd - 14400000) "106", by decide⟩]
  valid := by decide +kernel
  contiguous := by
    intro i
    cases i <;> decide +kernel

/-- An open position gets its decision. -/
theorem technique_law_climb : ∃ m, Momentum._measured climbSnapshot.primary climbEnd = .ok m ∧
    Lawful (fun d => d.ask) (Momentum._evaluate climbSnapshot climbEnd true)
      (ofText climbSnapshot.latestPrimary.close)
      (Momentum.stop m (ofText climbSnapshot.latestPrimary.close))
      (true = false ∧ Momentum.Enters m (ofText climbSnapshot.latestPrimary.close)) := by
  have hmeasured : (Momentum._measured climbSnapshot.primary climbEnd).isOk = true := by
    decide +kernel
  obtain ⟨m, hm⟩ := exists_of_isOk hmeasured
  exact ⟨m, hm, ((technique_law climbSnapshot climbEnd true).1 m hm).mpr fun h => nomatch h.1⟩

theorem enters_climb : ∃ m, Momentum._measured climbSnapshot.primary climbEnd = .ok m ∧
    Momentum.Enters m (ofText "106") ∧
      ¬ Ablation.LevelFits (ofText "106").toRat (Momentum.stop m (ofText "106")).toRat := by
  have hmeasured : (match Momentum._measured climbSnapshot.primary climbEnd with
      | .ok m => decide (Momentum.Enters m (ofText "106") ∧
          (Momentum.stop m (ofText "106")).exponent < -40 ∧
          (Momentum.stop m (ofText "106")).coefficient % 10 ≠ 0)
      | .error _ => false) = true := by
    decide +kernel
  cases hm : Momentum._measured climbSnapshot.primary climbEnd with
  | error e =>
    rw [hm] at hmeasured
    cases hmeasured
  | ok m =>
    rw [hm] at hmeasured
    obtain ⟨henters, hexponent, hdigit⟩ := of_decide_eq_true hmeasured
    exact ⟨m, rfl, henters, fun h => Ablation.not_onGrid_of_digit hexponent hdigit h.onGrid⟩

/-- The evaluator raises on the climb. -/
theorem climb_raises : Crisis._snapshotIsFresh climbSnapshot.toFields ∧
    (∃ m, Momentum._measured climbSnapshot.primary climbEnd = .ok m) ∧
    ¬ ∃ d, Momentum._evaluate climbSnapshot climbEnd false = .ok d := by
  have hlatest : climbSnapshot.latestPrimary.close = "106" := by decide +kernel
  obtain ⟨m, hm, henters, hfits⟩ := enters_climb
  have hreturns := (Momentum.decides_evaluate false hm).returns_iff (priced_latest climbSnapshot)
  rw [hlatest] at hreturns
  exact ⟨by decide +kernel, ⟨m, hm⟩, fun h => hfits (hreturns.mp h ⟨rfl, henters⟩)⟩

end StrategyLab

end TradingLab
