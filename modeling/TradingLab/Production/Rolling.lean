import TradingLab.Production.NoLookAhead

/-!
# Rolling windows over gaps

The rolling loop carries the start of the unbroken run of bars from one bar to the next.
At every bar this start says whether the plain scan of the window succeeds, and so which
bars exist at the times of the window.
-/

namespace TradingLab.Production
open Series List

section
variable {F : Type} (fl : Floats F) (cadence : ℤ) (rows : List (Row F))

structure RollingState (F : Type) where
  runStart : ℕ
  out : List (Option F)

/-- The start of the run that the last bar of a window belongs to. -/
def nextRunStart (current last : ℕ) : ℕ :=
  if 0 < last ∧ rows[last]?.map Row.time ≠ rows[last - 1]?.map (fun row => row.time + cadence) then last
  else current

def RollingState.next (column : Column) (window : ℤ) (lag : ℕ) (statistic : Statistic F)
    (s : RollingState F) (i : ℕ) : Except CompileFailure (RollingState F) :=
  if i < lag then .ok { s with out := s.out ++ [none] }
  else
    let last := i - lag
    let runStart := nextRunStart cadence rows s.runStart last
    let start := (last : ℤ) - window + 1
    if window < 1 then .ok ⟨runStart, s.out ++ [none]⟩
    else if start < 0 ∨ start < runStart then .ok ⟨runStart, s.out ++ [none]⟩
    else do
      let value ← fl.evaluate (((rows.take (last + 1)).drop start.toNat).map column.of) statistic
      return ⟨runStart, s.out ++ [some value]⟩

def rollingLoop (column : Column) (window lag : ℤ) (statistic : Statistic F) :
    Except CompileFailure (List (Option F)) := do
  raiseIf (lag < 0) (.mcf "invalid production feature lag")
  statistic.validate fl
  let s ← (List.range rows.length).foldlM
    (RollingState.next fl cadence rows column window lag.toNat statistic) ⟨0, []⟩
  return s.out

/-- The indexes of a window that ends at an index, when its bars follow one another. -/
def completeIndexes (last window : ℤ) : Option (List ℕ) :=
  if last < 0 then none
  else if isComplete cadence rows last.toNat window then
    some (List.range' (last - window + 1).toNat window.toNat)
  else none

/-- The statistic of the values at the indexes of a window. -/
def scanAt (column : Column) (window : ℤ) (lag : ℕ) (statistic : Statistic F) (i : ℕ) :
    Except CompileFailure (Option F) :=
  match completeIndexes cadence rows ((i : ℤ) - lag) window with
  | none => .ok none
  | some indexes =>
      (fl.evaluate ((indexes.filterMap fun j => rows[j]?).map column.of) statistic).map some

def rollingScan (column : Column) (window : ℤ) (lag : ℕ) (statistic : Statistic F) :
    Except CompileFailure (List (Option F)) := do
  statistic.validate fl
  indexedM rows.length (scanAt fl cadence rows column window lag statistic)

/-- The bars at the times of a window. -/
def barsAt (t : ℤ) (window : ℕ) : List (Row F) :=
  rows.filter fun row => (List.range window).any fun k => decide (row.time = t - k * cadence)

end

section
variable {F : Type} {fl : Floats F} {cadence : ℤ} {rows : List (Row F)}

theorem nextRunStart_zero (current : ℕ) : nextRunStart cadence rows current 0 = current := by
  unfold nextRunStart
  rw [if_neg fun h => absurd h.1 (lt_irrefl 0)]

theorem nextRunStart_runStart (last : ℕ) :
    nextRunStart cadence rows (runStart cadence rows last) (last + 1) =
      runStart cadence rows (last + 1) := by
  unfold nextRunStart
  rw [runStart, Nat.add_sub_cancel]
  simp only [Nat.succ_pos, true_and]

/-- What the loop carries before an index. -/
def carried (cadence : ℤ) (rows : List (Row F)) (lag i : ℕ) : ℕ :=
  if i ≤ lag then 0 else runStart cadence rows (i - 1 - lag)

theorem nextRunStart_carried {lag i : ℕ} (h : lag ≤ i) :
    nextRunStart cadence rows (carried cadence rows lag i) (i - lag) = runStart cadence rows (i - lag) := by
  obtain ⟨d, rfl⟩ := Nat.exists_eq_add_of_le h
  unfold carried
  rw [Nat.add_sub_cancel_left]
  cases d with
  | zero =>
    rw [if_pos (by omega), nextRunStart_zero]
    rfl
  | succ d =>
    rw [if_neg (by omega), show lag + (d + 1) - 1 - lag = d by omega, nextRunStart_runStart]

theorem next_eq (column : Column) (window : ℤ) (lag : ℕ) (statistic : Statistic F) (i : ℕ)
    (out : List (Option F)) :
    RollingState.next fl cadence rows column window lag statistic ⟨carried cadence rows lag i, out⟩ i =
      (rollingAt fl cadence rows column window lag statistic i).map fun value =>
        ⟨carried cadence rows lag (i + 1), out ++ [value]⟩ := by
  unfold RollingState.next rollingAt
  dsimp only
  by_cases hlag : i < lag
  · rw [if_pos hlag, if_pos (.inl hlag)]
    unfold carried
    rw [if_pos hlag.le, if_pos (Nat.succ_le_of_lt hlag)]
    rfl
  · have hcarried : carried cadence rows lag (i + 1) = runStart cadence rows (i - lag) := by
      unfold carried
      rw [if_neg (by omega), Nat.add_sub_cancel]
    rw [if_neg hlag, nextRunStart_carried (not_lt.mp hlag), hcarried]
    by_cases hwindow : window < 1
    · rw [if_pos hwindow, if_pos (.inr (.inl hwindow))]
      rfl
    · rw [if_neg hwindow]
      by_cases hstart : ((i - lag : ℕ) : ℤ) - window + 1 < runStart cadence rows (i - lag)
      · rw [if_pos (.inr hstart), if_pos (.inr (.inr hstart))]
        rfl
      · have hzero : ¬ (((i - lag : ℕ) : ℤ) - window + 1 < 0) := by omega
        rw [if_neg (not_or.mpr ⟨hzero, hstart⟩),
          if_neg (not_or.mpr ⟨hlag, not_or.mpr ⟨hwindow, hstart⟩⟩)]
        cases fl.evaluate _ statistic <;> rfl

theorem foldlM_next (column : Column) (window : ℤ) (lag : ℕ) (statistic : Statistic F) (n : ℕ) :
    (List.range n).foldlM (RollingState.next fl cadence rows column window lag statistic) ⟨0, []⟩ =
      (indexedM n (rollingAt fl cadence rows column window lag statistic)).map fun out =>
        ⟨carried cadence rows lag n, out⟩ := by
  induction n with
  | zero => rfl
  | succ n ih =>
    unfold indexedM at ih ⊢
    rw [range_succ, foldlM_append, ih, mapM_append]
    cases (range n).mapM (rollingAt fl cadence rows column window lag statistic) with
    | error e => rfl
    | ok out =>
      change (RollingState.next fl cadence rows column window lag statistic
        ⟨carried cadence rows lag n, out⟩ n >>= pure) = _
      rw [bind_pure, next_eq]
      cases hvalue : rollingAt fl cadence rows column window lag statistic n with
      | error e => simp [hvalue, Except.map, bind, Except.bind]
      | ok value => simp [hvalue, Except.map, bind, Except.bind, pure, Except.pure]

theorem rollingLoop_eq_rolling (column : Column) (window : ℤ) (lag : ℕ) (statistic : Statistic F) :
    rollingLoop fl cadence rows column window lag statistic =
      rolling fl cadence rows column window lag statistic := by
  unfold rollingLoop rolling
  rw [raiseIf_neg (not_lt.mpr (Int.natCast_nonneg lag)), ok_bind, Int.toNat_natCast, foldlM_next]
  cases statistic.validate fl with
  | error e => rfl
  | ok u =>
    cases indexedM rows.length (rollingAt fl cadence rows column window lag statistic) <;> rfl

end

/-- The times from one index to another go on in steps of the cadence. -/
def Unbroken (cadence : ℤ) (times : List ℤ) (start last : ℕ) : Prop :=
  ∀ j, start ≤ j → j < last → times[j + 1]? = times[j]?.map (· + cadence)

section
variable {F : Type} {cadence : ℤ} {rows : List (Row F)}

theorem runStart_le (last : ℕ) : runStart cadence rows last ≤ last := by
  induction last with
  | zero => exact le_rfl
  | succ last ih =>
    rw [runStart]
    split_ifs
    · exact le_rfl
    · exact ih.trans (Nat.le_succ last)

variable {start last i lag : ℕ} {window : ℤ}

theorem runStart_le_iff (h : start ≤ last) :
    runStart cadence rows last ≤ start ↔ Unbroken cadence (rows.map Row.time) start last := by
  induction last with
  | zero => exact ⟨fun _ j _ hj => absurd hj (Nat.not_lt_zero j), fun _ => Nat.zero_le start⟩
  | succ last ih =>
    rcases h.eq_or_lt with rfl | hlt
    · exact ⟨fun _ j hj hj' => absurd hj' (not_lt.mpr hj), fun _ => runStart_le _⟩
    · have hstep : rows[last + 1]?.map Row.time = rows[last]?.map (fun row => row.time + cadence) ↔
          (rows.map Row.time)[last + 1]? = (rows.map Row.time)[last]?.map (· + cadence) := by
        rw [List.getElem?_map, List.getElem?_map, Option.map_map]
        rfl
      rw [runStart]
      split_ifs with hbreak
      · refine ⟨fun hle => absurd hle (by omega), fun hun => ?_⟩
        exact absurd (hstep.mpr (hun last (by omega) (Nat.lt_succ_self last))) hbreak
      · rw [ih (by omega)]
        constructor
        · intro hun j hj hj'
          rcases (Nat.lt_succ_iff.mp hj').eq_or_lt with rfl | hj'
          · exact hstep.mp (not_not.mp hbreak)
          · exact hun j hj hj'
        · exact fun hun j hj hj' => hun j hj (by omega)

theorem isConsecutive_iff_isChain (time : ℤ) (times : List ℤ) :
    isConsecutive cadence time (time :: times) = true ↔
      (time :: times).IsChain fun s t => t = s + cadence := by
  induction times generalizing time with
  | nil => simp [isConsecutive]
  | cons next times ih =>
    rw [isConsecutive, decide_eq_true rfl, Bool.true_and, isConsecutive, isChain_cons_cons,
      Bool.and_eq_true, decide_eq_true_eq]
    constructor
    · rintro ⟨rfl, hrest⟩
      refine ⟨rfl, (ih _).mp ?_⟩
      rw [isConsecutive, decide_eq_true rfl, Bool.true_and]
      exact hrest
    · rintro ⟨rfl, hrest⟩
      have hnext := (ih _).mpr hrest
      rw [isConsecutive, decide_eq_true rfl, Bool.true_and] at hnext
      exact ⟨rfl, hnext⟩

def windowRows (rows : List (Row F)) (start last : ℕ) : List (Row F) :=
  (rows.take (last + 1)).drop start

theorem getElem?_windowRows {j : ℕ} (h : start + j ≤ last) :
    (windowRows rows start last)[j]? = rows[start + j]? := by
  unfold windowRows
  rw [List.getElem?_drop, getElem?_take_of_lt (by omega)]

theorem length_windowRows (hlast : last < rows.length) :
    (windowRows rows start last).length = last + 1 - start := by
  unfold windowRows
  rw [length_drop, List.length_take, min_eq_left (by omega)]

theorem isChain_windowRows (hlast : last < rows.length) :
    ((windowRows rows start last).map Row.time).IsChain (fun s t => t = s + cadence) ↔
      Unbroken cadence (rows.map Row.time) start last := by
  rw [isChain_iff_getElem]
  have hget : ∀ j, start + j ≤ last → ((windowRows rows start last).map Row.time)[j]? =
      (rows.map Row.time)[start + j]? := by
    intro j hj
    rw [List.getElem?_map, List.getElem?_map, getElem?_windowRows hj]
  have hlength : ((windowRows rows start last).map Row.time).length = last + 1 - start := by
    rw [length_map, length_windowRows hlast]
  constructor
  · intro hchain j hj hj'
    obtain ⟨d, rfl⟩ := Nat.exists_eq_add_of_le hj
    have hnext := hchain d (by omega)
    rw [add_assoc, ← hget d hj'.le, ← hget (d + 1) (by omega), getElem?_eq_getElem (by omega),
      getElem?_eq_getElem (by omega), hnext]
    rfl
  · intro hun j hj
    have hstep := hun (start + j) (Nat.le_add_right _ _) (by omega)
    rw [add_assoc, ← hget j (by omega), ← hget (j + 1) (by omega), getElem?_eq_getElem hj,
      getElem?_eq_getElem (by omega)] at hstep
    exact Option.some.inj hstep

theorem isComplete_iff (hlast : last < rows.length) :
    isComplete cadence rows last window = true ↔ 1 ≤ window ∧ 0 ≤ (last : ℤ) - window + 1 ∧
      Unbroken cadence (rows.map Row.time) ((last : ℤ) - window + 1).toNat last := by
  unfold isComplete
  dsimp only
  split_ifs with h
  · refine ⟨False.elim, ?_⟩
    rintro ⟨hwindow, hstart, -⟩
    omega
  · rw [not_or, not_lt, not_lt] at h
    rw [← isChain_windowRows hlast]
    unfold windowRows
    have hlength : (windowRows rows ((last : ℤ) - window + 1).toNat last).length =
        last + 1 - ((last : ℤ) - window + 1).toNat := length_windowRows hlast
    unfold windowRows at hlength
    cases hrows : (drop ((last : ℤ) - window + 1).toNat (rows.take (last + 1))).map Row.time with
    | nil =>
      have hempty := congrArg List.length hrows
      rw [length_map, hlength, length_nil] at hempty
      omega
    | cons time times =>
      rw [headD_cons, isConsecutive_iff_isChain]
      exact ⟨fun hchain => ⟨h.1, h.2, hchain⟩, fun hchain => hchain.2.2⟩

/-- The window of a rolling value is complete exactly when the scan says so. -/
theorem isComplete_iff_runStart (hlast : last < rows.length) :
    isComplete cadence rows last window = true ↔
      1 ≤ window ∧ (runStart cadence rows last : ℤ) ≤ (last : ℤ) - window + 1 := by
  rw [isComplete_iff hlast]
  constructor
  · rintro ⟨hwindow, hstart, hun⟩
    have hle := (runStart_le_iff (by omega)).mpr hun
    omega
  · rintro ⟨hwindow, hstart⟩
    exact ⟨hwindow, by omega, (runStart_le_iff (by omega)).mp (by omega)⟩

theorem filterMap_range' (start n : ℕ) (h : start + n ≤ rows.length) :
    ((List.range' start n).filterMap fun j => rows[j]?) = (rows.take (start + n)).drop start := by
  induction n generalizing start with
  | zero => simp
  | succ n ih =>
    have hlt : start < (rows.take (start + (n + 1))).length := by
      rw [List.length_take]
      omega
    rw [range'_succ, filterMap_cons_some (getElem?_eq_getElem (by omega)),
      ih (start + 1) (by omega), drop_eq_getElem_cons hlt, getElem_take,
      show start + 1 + n = start + (n + 1) by omega]

theorem completeIndexes_of_lt (h : i < lag) (window : ℤ) :
    completeIndexes cadence rows ((i : ℤ) - lag) window = none := by
  unfold completeIndexes
  rw [if_pos (by omega)]

theorem completeIndexes_of_le (h : lag ≤ i) (window : ℤ) :
    completeIndexes cadence rows ((i : ℤ) - lag) window =
      if isComplete cadence rows (i - lag) window then
        some (List.range' (((i - lag : ℕ) : ℤ) - window + 1).toNat window.toNat)
      else none := by
  have hlast : (i : ℤ) - lag = ((i - lag : ℕ) : ℤ) := by omega
  unfold completeIndexes
  rw [hlast, if_neg (by omega), Int.toNat_natCast]

theorem rollingAt_eq_scanAt {fl : Floats F} {column : Column}
    {statistic : Statistic F} (hi : i < rows.length) :
    rollingAt fl cadence rows column window lag statistic i =
      scanAt fl cadence rows column window lag statistic i := by
  unfold rollingAt scanAt
  dsimp only
  rcases lt_or_ge i lag with hlag | hlag
  · rw [if_pos (.inl hlag), completeIndexes_of_lt hlag]
  · have hcomplete : isComplete cadence rows (i - lag) window = true ↔ 1 ≤ window ∧
        (runStart cadence rows (i - lag) : ℤ) ≤ ((i - lag : ℕ) : ℤ) - window + 1 :=
      isComplete_iff_runStart (by omega)
    rw [completeIndexes_of_le hlag]
    by_cases h : isComplete cadence rows (i - lag) window = true
    · obtain ⟨hwindow, hstart⟩ := hcomplete.mp h
      rw [if_pos h, if_neg (by omega)]
      dsimp only
      rw [filterMap_range' _ _ (by omega), show (((i - lag : ℕ) : ℤ) - window + 1).toNat + window.toNat =
        i - lag + 1 by omega]
    · rw [if_neg h, if_pos (by rw [hcomplete] at h; omega)]

theorem rollingLoop_eq_scan (fl : Floats F) (column : Column) (window : ℤ) (lag : ℕ)
    (statistic : Statistic F) : rollingLoop fl cadence rows column window lag statistic =
      rollingScan fl cadence rows column window lag statistic := by
  rw [rollingLoop_eq_rolling]
  unfold rolling rollingScan indexedM
  congr 1
  funext _
  apply mapM_congr
  intro i hi
  exact rollingAt_eq_scanAt (mem_range.mp hi)

end

section
variable {F : Type} {fl : Floats F} {cadence : ℤ} {rows : List (Row F)} {column : Column}
  {window : ℤ} {lag : ℕ} {statistic : Statistic F} {out : List (Option F)}

variable {i : ℕ}

theorem getElem?_of_indexedM {ε β : Type} {n : ℕ} {f : ℕ → Except ε β} {ys : List β}
    (h : indexedM n f = .ok ys) (hi : i < n) : ∃ y, f i = .ok y ∧ ys[i]? = some y := by
  obtain ⟨hlength, hget⟩ := forall₂_iff_get.mp (mapM_eq_ok.mp h)
  rw [length_range] at hlength
  have hvalue := hget i (by simpa using hi) (by omega)
  rw [get_eq_getElem, getElem_range] at hvalue
  exact ⟨_, hvalue, getElem?_eq_getElem (by omega)⟩

theorem scan_of_rollingLoop (h : rollingLoop fl cadence rows column window lag statistic = .ok out)
    (hi : i < rows.length) :
    ∃ y, scanAt fl cadence rows column window lag statistic i = .ok y ∧ out[i]? = some y := by
  rw [rollingLoop_eq_scan] at h
  obtain ⟨-, h⟩ := unit_bind_eq_ok.mp h
  exact getElem?_of_indexedM h hi

/-- A value is there when the window is complete, and is the statistic of the window. -/
theorem scanAt_eq_ok {y : Option F} (hlag : lag ≤ i) (hi : i < rows.length)
    (h : scanAt fl cadence rows column window lag statistic i = .ok y) :
    (y.isSome = isComplete cadence rows (i - lag) window) ∧ ∀ v, y = some v →
      fl.evaluate ((windowRows rows (((i - lag : ℕ) : ℤ) - window + 1).toNat (i - lag)).map column.of)
        statistic = .ok v := by
  unfold scanAt at h
  rw [completeIndexes_of_le hlag] at h
  by_cases hcomplete : isComplete cadence rows (i - lag) window = true
  · obtain ⟨hwindow, hstart, -⟩ := (isComplete_iff (by omega)).mp hcomplete
    rw [if_pos hcomplete] at h
    dsimp only at h
    rw [filterMap_range' _ _ (by omega), show (((i - lag : ℕ) : ℤ) - window + 1).toNat + window.toNat =
      i - lag + 1 by omega] at h
    cases hvalue : fl.evaluate (((rows.take (i - lag + 1)).drop
        (((i - lag : ℕ) : ℤ) - window + 1).toNat).map column.of) statistic with
    | error e =>
      rw [hvalue] at h
      cases h
    | ok v =>
      rw [hvalue] at h
      cases h
      refine ⟨hcomplete.symm, ?_⟩
      rintro _ ⟨rfl⟩
      exact hvalue
  · rw [if_neg hcomplete] at h
    cases h
    exact ⟨by simpa using hcomplete, fun v hv => nomatch hv⟩

theorem scanAt_of_lt {y : Option F} (hlag : i < lag)
    (h : scanAt fl cadence rows column window lag statistic i = .ok y) : y = none := by
  unfold scanAt at h
  rw [completeIndexes_of_lt hlag] at h
  cases h
  rfl

end

section
variable {cadence : ℤ} {times : List ℤ} {last : ℕ} {t : ℤ}

/-- The times of a series on the grid of a cadence. -/
structure OnCadence (cadence : ℤ) (times : List ℤ) : Prop where
  positive : 0 < cadence
  ascending : times.Pairwise (· < ·)
  aligned : ∀ t ∈ times, t % cadence = 0

/-- The times before the last one, as far as a window goes back. -/
def Covers (cadence : ℤ) (times : List ℤ) (last : ℕ) (t : ℤ) (window : ℕ) : Prop :=
  ∀ k < window, k ≤ last ∧ times[last - k]? = some (t - k * cadence)

theorem covers_iff_unbroken {window : ℕ} (hlast : times[last]? = some t) (hwindow : 1 ≤ window) :
    Covers cadence times last t window ↔
      window ≤ last + 1 ∧ Unbroken cadence times (last + 1 - window) last := by
  constructor
  · intro h
    have hroom := (h (window - 1) (by omega)).1
    refine ⟨by omega, ?_⟩
    intro j hj hj'
    have hnext := (h (last - (j + 1)) (by omega)).2
    have hthis := (h (last - j) (by omega)).2
    rw [show last - (last - (j + 1)) = j + 1 by omega] at hnext
    rw [show last - (last - j) = j by omega] at hthis
    rw [hnext, hthis, Option.map_some, show ((last - j : ℕ) : ℤ) = ((last - (j + 1) : ℕ) : ℤ) + 1 by omega]
    congr 1
    ring
  · rintro ⟨hroom, hun⟩ k hk
    refine ⟨by omega, ?_⟩
    induction k with
    | zero => simpa using hlast
    | succ k ih =>
      have hstep := hun (last - (k + 1)) (by omega) (by omega)
      rw [show last - (k + 1) + 1 = last - k by omega, ih (by omega)] at hstep
      obtain ⟨s, hs, hsum⟩ := Option.map_eq_some_iff.mp hstep.symm
      rw [hs]
      push_cast
      congr 1
      linarith

theorem OnCadence.lt_of_lt (h : OnCadence cadence times) {i j : ℕ} {s u : ℤ} (hij : i < j)
    (hs : times[i]? = some s) (hu : times[j]? = some u) : s < u := by
  obtain ⟨hi, rfl⟩ := List.getElem?_eq_some_iff.mp hs
  obtain ⟨hj, rfl⟩ := List.getElem?_eq_some_iff.mp hu
  exact pairwise_iff_getElem.mp h.ascending i j hi hj hij

theorem OnCadence.eq_of_between (h : OnCadence cadence times) {s u : ℤ} (hs : s ∈ times)
    (hu : u ∈ times) (hle : u - cadence ≤ s) (hlt : s < u) : s = u - cadence := by
  have hsgrid := Int.dvd_of_emod_eq_zero (h.aligned s hs)
  have hugrid := Int.dvd_of_emod_eq_zero (h.aligned u hu)
  obtain ⟨a, rfl⟩ := hsgrid
  obtain ⟨b, rfl⟩ := hugrid
  have hpos := h.positive
  have hab : a < b := lt_of_mul_lt_mul_left hlt hpos.le
  have hba : b - 1 ≤ a := by
    refine le_of_mul_le_mul_left ?_ hpos
    linarith [mul_sub cadence b 1]
  rw [show a = b - 1 by omega]
  ring

theorem covers_iff_mem (h : OnCadence cadence times) (hlast : times[last]? = some t) {window : ℕ} :
    Covers cadence times last t window ↔ ∀ k < window, t - (k : ℤ) * cadence ∈ times := by
  constructor
  · intro hcovers k hk
    exact mem_of_getElem? (hcovers k hk).2
  · intro hmem k hk
    induction k with
    | zero => exact ⟨Nat.zero_le _, by simpa using hlast⟩
    | succ k ih =>
      obtain ⟨hroom, hcurrent⟩ := ih (by omega)
      obtain ⟨j, hj⟩ := List.mem_iff_getElem?.mp (hmem (k + 1) hk)
      have hpos := h.positive
      have hbefore : j < last - k := by
        by_contra hnot
        rcases (not_lt.mp hnot).eq_or_lt with heq | hlt
        · rw [← heq, hcurrent] at hj
          have := Option.some.inj hj
          push_cast at this
          linarith
        · have := h.lt_of_lt hlt hcurrent hj
          push_cast at this
          linarith
      have hprior : last - k - 1 < times.length := by
        have := (List.getElem?_eq_some_iff.mp hcurrent).1
        omega
      have hget := getElem?_eq_getElem hprior
      refine ⟨by omega, ?_⟩
      have hlt := h.lt_of_lt (show last - k - 1 < last - k by omega) hget hcurrent
      have hle : t - ((k + 1 : ℕ) : ℤ) * cadence ≤ times[last - k - 1] := by
        rcases (show j ≤ last - k - 1 by omega).eq_or_lt with rfl | hjlt
        · rw [hget] at hj
          exact (Option.some.inj hj).ge
        · exact (h.lt_of_lt hjlt hj hget).le
      have heq := h.eq_of_between (getElem_mem hprior) (mem_of_getElem? hcurrent)
        (by push_cast at hle; linarith) hlt
      rw [show last - (k + 1) = last - k - 1 by omega, hget, heq]
      push_cast
      congr 1
      ring

end

section
variable {F : Type} {rows : List (Row F)}

theorem filter_eq_windowRows {start last : ℕ} {p : Row F → Bool}
    (h : ∀ j row, rows[j]? = some row → (p row = true ↔ start ≤ j ∧ j ≤ last)) :
    rows.filter p = windowRows rows start last := by
  unfold windowRows
  have hsplit : rows.take start ++ ((rows.take (last + 1)).drop start ++ rows.drop (max start (last + 1))) =
      rows := by
    rcases le_total start (last + 1) with hle | hle
    · rw [max_eq_right hle, ← append_assoc]
      have htake : rows.take start = (rows.take (last + 1)).take start := by
        rw [take_take, min_eq_left hle]
      rw [htake, take_append_drop, take_append_drop]
    · rw [max_eq_left hle, drop_eq_nil_of_le (by rw [List.length_take]; omega), nil_append,
        take_append_drop]
  have hbefore : (rows.take start).filter p = [] := by
    rw [filter_eq_nil_iff]
    intro row hrow
    obtain ⟨j, hj⟩ := List.mem_iff_getElem?.mp hrow
    have hlt := (List.getElem?_eq_some_iff.mp hj).1
    rw [List.length_take] at hlt
    rw [getElem?_take_of_lt (by omega)] at hj
    rw [h j row hj]
    omega
  have hafter : (rows.drop (max start (last + 1))).filter p = [] := by
    rw [filter_eq_nil_iff]
    intro row hrow
    obtain ⟨j, hj⟩ := List.mem_iff_getElem?.mp hrow
    rw [List.getElem?_drop] at hj
    rw [h _ row hj]
    omega
  have hwithin : ((rows.take (last + 1)).drop start).filter p = (rows.take (last + 1)).drop start := by
    rw [filter_eq_self]
    intro row hrow
    obtain ⟨j, hj⟩ := List.mem_iff_getElem?.mp hrow
    rw [List.getElem?_drop] at hj
    have hlt := (List.getElem?_eq_some_iff.mp hj).1
    rw [List.length_take] at hlt
    rw [getElem?_take_of_lt (by omega)] at hj
    rw [h _ row hj]
    omega
  conv_lhs => rw [← hsplit]
  rw [filter_append, filter_append, hbefore, hwithin, hafter, append_nil, nil_append]

variable {cadence : ℤ} {last : ℕ} {t : ℤ}

/-- The bars at the times of a complete window are the rows of the window. -/
theorem barsAt_eq_windowRows (h : OnCadence cadence (rows.map Row.time)) {window : ℕ}
    (hwindow : 1 ≤ window) (hcovers : Covers cadence (rows.map Row.time) last t window) :
    barsAt cadence rows t window = windowRows rows (last + 1 - window) last := by
  apply filter_eq_windowRows
  intro j row hrow
  have htime : (rows.map Row.time)[j]? = some row.time := by rw [List.getElem?_map, hrow]; rfl
  have hroom := (hcovers (window - 1) (by omega)).1
  rw [any_eq_true]
  constructor
  · rintro ⟨k, hk, hkt⟩
    rw [decide_eq_true_eq] at hkt
    have hk := mem_range.mp hk
    obtain ⟨hkle, hktime⟩ := hcovers k hk
    rw [← hkt] at hktime
    have heq : j = last - k := by
      rcases lt_trichotomy j (last - k) with hlt | heq | hlt
      · exact absurd (h.lt_of_lt hlt htime hktime) (lt_irrefl _)
      · exact heq
      · exact absurd (h.lt_of_lt hlt hktime htime) (lt_irrefl _)
    omega
  · rintro ⟨hstart, hle⟩
    have hthis := (hcovers (last - j) (by omega)).2
    rw [show last - (last - j) = j by omega, htime] at hthis
    exact ⟨last - j, mem_range.mpr (by omega), decide_eq_true (Option.some.inj hthis)⟩

end

section
variable {F : Type} {fl : Floats F}

theorem ProductionBars.onCadence (bars : ProductionBars fl) :
    OnCadence bars.timeframe.cadenceMs (bars.rows.map Row.time) := by
  refine ⟨cadenceMs_pos _, bars.ascending, ?_⟩
  intro t ht
  obtain ⟨row, hrow, rfl⟩ := mem_map.mp ht
  have hvalid := bars.valid
  unfold BarsFields.validate at hvalid
  dsimp only at hvalid
  rw [raiseIf_bind_eq_ok, raiseIf_bind_eq_ok, raiseIf_bind_eq_ok, raiseIf_bind_eq_ok] at hvalid
  have haligned := hvalid.2.2.2.1
  rw [Bool.not_eq_true, any_eq_false] at haligned
  have := haligned row hrow
  simp only [Bool.or_eq_true, decide_eq_true_eq, not_or, not_not] at this
  exact this.1

variable {row : Row F}

theorem ProductionBars.close_positive (bars : ProductionBars fl) (hrow : row ∈ bars.rows) :
    fl.le row.close fl.zero = false := by
  have hvalid := bars.valid
  unfold BarsFields.validate at hvalid
  dsimp only at hvalid
  rw [raiseIf_bind_eq_ok, raiseIf_bind_eq_ok, raiseIf_bind_eq_ok, raiseIf_bind_eq_ok,
    raiseIf_bind_eq_ok, raiseIf_bind_eq_ok] at hvalid
  have hprices := hvalid.2.2.2.2.2.1
  rw [Bool.not_eq_true, any_eq_false] at hprices
  have hprice := hprices row hrow
  rw [any_eq_true, not_exists] at hprice
  have hclose := hprice row.close
  simpa [Row.prices] using hclose

theorem windowRows_eq_barsAt (bars : ProductionBars fl) {last : ℕ} {window : ℤ}
    (hrow : bars.rows[last]? = some row)
    (h : isComplete bars.timeframe.cadenceMs bars.rows last window = true) :
    windowRows bars.rows ((last : ℤ) - window + 1).toNat last =
      barsAt bars.timeframe.cadenceMs bars.rows row.time window.toNat := by
  have hlast := (List.getElem?_eq_some_iff.mp hrow).1
  have htime : (bars.rows.map Row.time)[last]? = some row.time := by rw [List.getElem?_map, hrow]; rfl
  obtain ⟨hwindow, hstart, hun⟩ := (isComplete_iff hlast).mp h
  have hindex : ((last : ℤ) - window + 1).toNat = last + 1 - window.toNat := by omega
  rw [hindex] at hun ⊢
  exact (barsAt_eq_windowRows bars.onCadence (by omega)
    ((covers_iff_unbroken htime (by omega)).mpr ⟨by omega, hun⟩)).symm

/-- A window is complete when there is a bar at each of its times. -/
theorem isComplete_iff_times (bars : ProductionBars fl) {last : ℕ} {window : ℤ}
    (hwindow : 1 ≤ window) (hrow : bars.rows[last]? = some row) :
    isComplete bars.timeframe.cadenceMs bars.rows last window = true ↔
      ∀ k < window.toNat, ∃ bar ∈ bars.rows, bar.time = row.time - (k : ℤ) * bars.timeframe.cadenceMs := by
  have hlast := (List.getElem?_eq_some_iff.mp hrow).1
  have htime : (bars.rows.map Row.time)[last]? = some row.time := by rw [List.getElem?_map, hrow]; rfl
  have htimes : Covers bars.timeframe.cadenceMs (bars.rows.map Row.time) last row.time window.toNat ↔ _ :=
    covers_iff_mem bars.onCadence htime
  have hcovers : Covers bars.timeframe.cadenceMs (bars.rows.map Row.time) last row.time window.toNat ↔ _ :=
    covers_iff_unbroken htime (by omega)
  have hmem : ∀ s, s ∈ bars.rows.map Row.time ↔ ∃ bar ∈ bars.rows, bar.time = s := fun s => mem_map
  simp only [hmem] at htimes
  rw [← htimes, hcovers, isComplete_iff hlast]
  have hindex : ((last : ℤ) - window + 1).toNat = last + 1 - window.toNat := by omega
  rw [hindex]
  constructor
  · rintro ⟨-, hstart, hun⟩
    exact ⟨by omega, hun⟩
  · rintro ⟨hroom, hun⟩
    exact ⟨hwindow, by omega, hun⟩

variable {column : Column} {window : ℤ} {lag : ℕ} {statistic : Statistic F} {out : List (Option F)}

theorem laggedReturn_isSome (bars : ProductionBars fl)
    (hzero : ∀ x, fl.eq x fl.zero = true → fl.le x fl.zero = true) {lookback : ℤ} (hlookback : 1 ≤ lookback)
    {i : ℕ} (hi : i < bars.rows.length) :
    (laggedReturnAt fl bars.timeframe.cadenceMs bars.rows lookback i).isSome =
      isComplete bars.timeframe.cadenceMs bars.rows i (lookback + 1) := by
  unfold laggedReturnAt
  rw [getElem?_eq_getElem hi, Option.bind_eq_bind, Option.bind_some]
  split_ifs with hcomplete
  · obtain ⟨-, hstart, -⟩ := (isComplete_iff hi).mp hcomplete
    have hprior : i - lookback.toNat < bars.rows.length := by omega
    have hpositive := bars.close_positive (getElem_mem hprior)
    have hnonzero : fl.eq bars.rows[i - lookback.toNat].close fl.zero = false := by
      rw [← Bool.not_eq_true]
      intro heq
      rw [hzero _ heq] at hpositive
      cases hpositive
    rw [getElem?_eq_getElem hprior, Option.bind_some, Floats.change, hnonzero, hcomplete]
    rfl
  · simpa using hcomplete

/-- The rolling loop is the plain scan of every window, and a return is known where such a window is
complete. -/
theorem rolling_eq_scan (bars : ProductionBars fl)
    (hzero : ∀ x, fl.eq x fl.zero = true → fl.le x fl.zero = true) :
    (∀ column window (lag : ℕ) statistic,
      rollingLoop fl bars.timeframe.cadenceMs bars.rows column window lag statistic =
        rollingScan fl bars.timeframe.cadenceMs bars.rows column window lag statistic) ∧
    (∀ column window (lag : ℕ) statistic out,
      rollingLoop fl bars.timeframe.cadenceMs bars.rows column window lag statistic = .ok out →
        ∀ i < bars.rows.length, (valueAt out i = none ↔ i < lag ∨
          completeIndexes bars.timeframe.cadenceMs bars.rows ((i : ℤ) - lag) window = none)) ∧
    (∀ column statistic lookback out returns, 1 ≤ lookback →
      rollingLoop fl bars.timeframe.cadenceMs bars.rows column (lookback + 1) 0 statistic = .ok out →
      laggedReturn fl bars.timeframe.cadenceMs bars.rows lookback = .ok returns →
        ∀ i < bars.rows.length, (valueAt out i).isSome = (valueAt returns i).isSome) := by
  refine ⟨fun column window lag statistic => rollingLoop_eq_scan fl column window lag statistic, ?_, ?_⟩
  · intro column window lag statistic out hout i hi
    obtain ⟨y, hscan, hy⟩ := scan_of_rollingLoop hout hi
    have hvalue : valueAt out i = y := by rw [valueAt, hy]; rfl
    rw [hvalue]
    rcases lt_or_ge i lag with hlag | hlag
    · exact ⟨fun _ => .inl hlag, fun _ => scanAt_of_lt hlag hscan⟩
    · have hsome := (scanAt_eq_ok hlag hi hscan).1
      rw [completeIndexes_of_le hlag]
      cases y with
      | none =>
        rw [← hsome, if_neg (by simp)]
        exact ⟨fun _ => .inr rfl, fun _ => rfl⟩
      | some v =>
        rw [← hsome, if_pos Option.isSome_some]
        simp only [reduceCtorEq, false_iff, not_or, not_lt, not_false_eq_true, and_true]
        exact hlag
  · intro column statistic lookback out returns hlookback hout hreturns i hi
    obtain ⟨y, hscan, hy⟩ := scan_of_rollingLoop hout hi
    have hvalue : valueAt out i = y := by rw [valueAt, hy]; rfl
    unfold laggedReturn at hreturns
    obtain ⟨-, hreturns⟩ := raiseIf_bind_eq_ok.mp hreturns
    cases hreturns
    have hreturn : valueAt (indexed bars.rows.length
        (laggedReturnAt fl bars.timeframe.cadenceMs bars.rows lookback)) i =
          laggedReturnAt fl bars.timeframe.cadenceMs bars.rows lookback i := by
      simp [valueAt, indexed, hi]
    rw [hvalue, (scanAt_eq_ok (Nat.zero_le i) hi hscan).1, hreturn,
      laggedReturn_isSome bars hzero hlookback hi, Nat.sub_zero]

theorem rolling_eq_scan_sample :
    rollingLoop rationals Timeframe.m15.cadenceMs (sampleBars true).rows .closes 2 0 .mean =
      rollingScan rationals Timeframe.m15.cadenceMs (sampleBars true).rows .closes 2 0 .mean :=
  (rolling_eq_scan (sampleBars true) fun x hx => by
    simp only [rationals, decide_eq_true_eq] at hx ⊢
    exact hx.le).1 .closes 2 0 .mean

/-- A rolling value is there when the window of bars, which ends the lag before the bar, has no gap. It
is the statistic of the bars at the times of that window. -/
theorem rolling_at_times (bars : ProductionBars fl) (hwindow : 1 ≤ window)
    (h : rollingLoop fl bars.timeframe.cadenceMs bars.rows column window lag statistic = .ok out) :
    (∀ i < lag, i < bars.rows.length → valueAt out i = none) ∧
    ∀ i last, lag ≤ i → i < bars.rows.length → bars.rows[i - lag]? = some last →
      ((valueAt out i).isSome ↔ ∀ k < window.toNat, ∃ bar ∈ bars.rows,
        bar.time = last.time - (k : ℤ) * bars.timeframe.cadenceMs) ∧
      ∀ v, valueAt out i = some v →
        fl.evaluate ((barsAt bars.timeframe.cadenceMs bars.rows last.time window.toNat).map column.of)
          statistic = .ok v := by
  constructor
  · intro i hlag hi
    obtain ⟨y, hscan, hy⟩ := scan_of_rollingLoop h hi
    rw [valueAt, hy, scanAt_of_lt hlag hscan]
    rfl
  · intro i last hlag hi hlast
    obtain ⟨y, hscan, hy⟩ := scan_of_rollingLoop h hi
    have hvalue : valueAt out i = y := by rw [valueAt, hy]; rfl
    obtain ⟨hsome, hstatistic⟩ := scanAt_eq_ok hlag hi hscan
    rw [hvalue]
    refine ⟨by rw [hsome]; exact isComplete_iff_times bars hwindow hlast, ?_⟩
    rintro v rfl
    rw [← windowRows_eq_barsAt bars hlast hsome.symm]
    exact hstatistic v rfl

/-- Three bars with a gap before the last one. -/
def gapBars : ProductionBars rationals where
  symbol := sampleSymbol
  timeframe := .m15
  rows := [sampleRow 0 10, sampleRow 1 9, sampleRow 3 12]
  datasetId := "sample"
  evidencePartition := "DEVELOPMENT"
  valid := by decide +kernel

theorem rollingLoop_gapBars :
    rollingLoop rationals gapBars.timeframe.cadenceMs gapBars.rows .closes 1 (1 : ℕ) .mean =
      .ok [none, some 10, some 9] := by decide +kernel

theorem rolling_at_times_sample : rationals.evaluate
    ((barsAt gapBars.timeframe.cadenceMs gapBars.rows 1583021700000 1).map Column.closes.of) .mean = .ok 9 :=
  ((rolling_at_times gapBars (le_refl 1) rollingLoop_gapBars).2 2 (sampleRow 1 9) (by decide) (by decide)
    rfl).2 9 rfl

/-- The bar after a gap has a value of the bar before the gap. -/
theorem rolling_bridges_gap : ¬ ∀ out,
    rollingLoop rationals gapBars.timeframe.cadenceMs gapBars.rows .closes 1 1 .mean = .ok out →
      ∀ i row, gapBars.rows[i]? = some row → ((valueAt out i).isSome ↔
        ∀ k < 1, ∃ bar ∈ gapBars.rows,
          bar.time = row.time - ((1 + k : ℕ) : ℤ) * gapBars.timeframe.cadenceMs) := by
  intro h
  have hbar := (h [none, some 10, some 9] rollingLoop_gapBars 2 (sampleRow 3 12) rfl).mp rfl 0 (by decide)
  revert hbar
  decide +kernel

end

end TradingLab.Production
