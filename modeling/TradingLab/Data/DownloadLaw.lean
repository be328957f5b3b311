import Mathlib.Data.List.Sort
import TradingLab.Data.Download

/-!
# What a download returns

Against any client the loop ends, and the rows it kept are increasing klines of
the range that were not known. Against a client that serves a history page by
page, whatever the sizes of the pages, they are all of them.
-/

namespace TradingLab

open List

section Keyed
variable {α : Type} {key : α → ℤ} {l : List α}

def between (key : α → ℤ) (a b : ℤ) (l : List α) : List α :=
  l.filter fun x => a ≤ key x ∧ key x < b

variable {a b : ℤ} {x : α}

theorem mem_between : x ∈ between key a b l ↔ x ∈ l ∧ a ≤ key x ∧ key x < b := by
  simp [between]

theorem between_cons (h : a ≤ key x ∧ key x < b) :
    between key a b (x :: l) = x :: between key a b l :=
  List.filter_cons_of_pos (by simpa using h)

theorem between_cons_outside (h : ¬ (a ≤ key x ∧ key x < b)) :
    between key a b (x :: l) = between key a b l :=
  List.filter_cons_of_neg (by simpa using h)

theorem between_eq_nil (h : ∀ x ∈ l, ¬ (a ≤ key x ∧ key x < b)) :
    between key a b l = [] := by
  unfold between
  rw [filter_eq_nil_iff]
  intro x hx
  simpa using h x hx

/-- A range of an increasing list is put together from its two parts. -/
theorem between_append (h : (l.map key).Pairwise (· < ·)) {c : ℤ} (hab : a ≤ b) (hbc : b ≤ c) :
    between key a c l = between key a b l ++ between key b c l := by
  induction l with
  | nil => rfl
  | cons x l ih =>
    obtain ⟨hx, hl⟩ := pairwise_cons.mp h
    have ih := ih hl
    by_cases hxb : key x < b
    · -- the entry is of the first part, or of none
      rw [between_cons_outside (a := b) (by omega)]
      by_cases hxa : a ≤ key x
      · rw [between_cons (by omega), between_cons (by omega), ih, cons_append]
      · rw [between_cons_outside (by omega), between_cons_outside (by omega), ih]
    · -- nothing after the entry is of the first part
      have hnil : between key a b l = [] := by
        apply between_eq_nil
        intro y hy
        have := hx (key y) (mem_map_of_mem hy)
        omega
      rw [hnil, nil_append] at ih
      rw [between_cons_outside (b := b) (by omega), hnil, nil_append]
      by_cases hxc : key x < c
      · rw [between_cons (by omega), between_cons (by omega), ih]
      · rw [between_cons_outside (by omega), between_cons_outside (by omega), ih]

theorem between_self (a : ℤ) (l : List α) : between key a a l = [] :=
  between_eq_nil fun _ _ => by omega

theorem le_getLast {ts : List ℤ} {last : ℤ} (h : ts.Pairwise (· < ·)) (hlast : ts.getLast? = some last) :
    ∀ t ∈ ts, t ≤ last := by
  intro t ht
  obtain ⟨init, rfl⟩ := getLast?_eq_some_iff.mp hlast
  rcases mem_append.mp ht with ht | ht
  · exact ((pairwise_append.mp h).2.2 t ht last (by simp)).le
  · rw [mem_singleton.mp ht]

/-- The first part of an increasing list is a range, up to what follows its last key. -/
theorem take_eq_between (h : (l.map key).Pairwise (· < ·)) {n : ℕ} {last : ℤ}
    (hlast : ((l.take n).map key).getLast? = some last) (ha : ∀ x ∈ l, a ≤ key x)
    (hb : ∀ x ∈ l, key x < b ↔ key x ≤ last) : l.take n = between key a b l := by
  have hsplit : l.map key = (l.take n).map key ++ (l.drop n).map key := by
    rw [← map_append, take_append_drop]
  rw [hsplit, pairwise_append] at h
  obtain ⟨hinc, -, hcross⟩ := h
  have hmem : last ∈ (l.take n).map key := mem_of_getLast? hlast
  have hdrop : between key a b (l.drop n) = [] := by
    apply between_eq_nil
    intro x hx
    have hlt := hcross last hmem (key x) (mem_map_of_mem hx)
    have := hb x (mem_of_mem_drop hx)
    omega
  have htake : between key a b (l.take n) = l.take n := by
    unfold between
    rw [filter_eq_self]
    intro x hx
    have hle := le_getLast hinc hlast (key x) (mem_map_of_mem hx)
    have := (hb x (mem_of_mem_take hx)).mpr hle
    simpa using ⟨ha x (mem_of_mem_take hx), this⟩
  calc l.take n = between key a b (l.take n) ++ between key a b (l.drop n) := by
        rw [hdrop, htake, append_nil]
    _ = between key a b l := by
        unfold between
        rw [← filter_append, take_append_drop]

end Keyed

namespace Download

variable {client : KlineClient} {r : Request} {s s' : Progress}

/-- The loop variables after a round that read some rows. -/
def Progress.turn (r : Request) (s : Progress) (read : List (ℤ × List Json)) : Progress :=
  { ({ s with pages := s.pages + 1 } : Progress).absorb r read with
    cursor := (read.map Prod.fst).getLast?.getD 0 + r.duration }

/-- What the client answers in a round. -/
def answer (client : KlineClient) (r : Request) (s : Progress) :
    Except PublicRestError (List Json) :=
  client.klines r.pair (min r.pageLimit ((r.endTimeMs - s.cursor) / r.duration)) s.cursor
    (r.endTimeMs - 1)

theorem _round_of_finished (h : _round client r s = .ok (.finished s')) :
    s' = { s with pages := s.pages + 1 } := by
  unfold _round at h
  dsimp only at h
  split at h
  · cases h
  split at h
  · cases h
    rfl
  · obtain ⟨x, -, h⟩ := bind_eq_ok.mp h
    rw [raiseIf_bind_eq_ok] at h
    cases h.2

theorem _round_of_goesOn (h : _round client r s = .ok (.goesOn s')) :
    ∃ page read, answer client r s = .ok page ∧ read ≠ [] ∧ Reads r s none page read ∧
      s' = s.turn r read := by
  unfold _round at h
  dsimp only at h
  split at h
  · cases h
  rename_i page hpage
  split at h
  · cases h
  rename_i hne
  obtain ⟨⟨last, t⟩, hx, h⟩ := bind_eq_ok.mp h
  rw [raiseIf_bind_eq_ok] at h
  obtain ⟨-, h⟩ := h
  cases h
  obtain ⟨read, hread, rfl, rfl⟩ := _readRows_eq_ok.mp hx
  refine ⟨page, read, hpage, ?_, ⟨hread.page_eq, hread.rows, hread.increasing, hread.fresh⟩, ?_⟩
  · rintro rfl
    exact hne hread.page_eq
  · rw [Option.or_none]
    rfl

variable {page : List Json} {read : List (ℤ × List Json)}

/-- A page that can be read is read. -/
theorem _round_of_reads (hd : 0 < r.duration)
    (hpage : answer client r s = .ok page) (hne : read ≠ []) (hread : Reads r s none page read) :
    _round client r s = .ok (.goesOn (s.turn r read)) := by
  have hx : _readRows r none { s with pages := s.pages + 1 } page =
      .ok ((read.map Prod.fst).getLast?.or none,
        ({ s with pages := s.pages + 1 } : Progress).absorb r read) :=
    _readRows_eq_ok.mpr ⟨read, ⟨hread.page_eq, hread.rows, hread.increasing, hread.fresh⟩, rfl, rfl⟩
  have hpne : page ≠ [] := by
    rw [hread.page_eq]
    simpa using hne
  have hmap : read.map Prod.fst ≠ [] := by simpa using hne
  obtain ⟨last, hlast⟩ : ∃ last, (read.map Prod.fst).getLast? = some last :=
    ⟨_, getLast?_eq_some_getLast hmap⟩
  have hle : s.cursor ≤ last := by
    obtain ⟨x, hx, rfl⟩ := mem_map.mp (mem_of_getLast? hlast)
    exact (hread.rows x hx).lower
  unfold answer at hpage
  unfold _round
  dsimp only
  rw [hpage]
  dsimp only
  rw [if_neg hpne, hx, ok_bind, hlast]
  dsimp only
  rw [raiseIf_neg, ok_bind]
  · unfold Progress.turn
    rw [hlast]
    rfl
  · simp only [Progress.absorb, Option.or_none, Option.getD_some, not_le]
    omega

theorem _round_of_empty (hpage : answer client r s = .ok []) :
    _round client r s = .ok (.finished { s with pages := s.pages + 1 }) := by
  unfold answer at hpage
  unfold _round
  dsimp only
  rw [hpage]
  rfl

theorem exists_last (hne : read ≠ [])
    (hread : Reads r s none page read) : ∃ last, (read.map Prod.fst).getLast? = some last ∧
      (∀ x ∈ read, x.1 ≤ last) ∧ (s.cursor ≤ last ∧ last < r.endTimeMs ∧ last % r.duration = 0) ∧
      (s.turn r read).cursor = last + r.duration := by
  have hmap : read.map Prod.fst ≠ [] := by simpa using hne
  refine ⟨_, getLast?_eq_some_getLast hmap, ?_, ?_, ?_⟩
  · intro x hx
    exact le_getLast hread.increasing (getLast?_eq_some_getLast hmap) x.1
      (mem_map_of_mem hx)
  · obtain ⟨x, hx, heq⟩ := mem_map.mp (getLast_mem hmap)
    have hrow := hread.rows x hx
    rw [← heq]
    exact ⟨hrow.lower, hrow.upper, hrow.aligned⟩
  · unfold Progress.turn
    rw [getLast?_eq_some_getLast hmap]
    rfl

/-- Every round takes the cursor a candle further, so the rounds of the range are enough. -/
theorem loop_terminates (client : KlineClient) (r : Request) (n : ℕ) :
    ∀ s : Progress, r.endTimeMs - s.cursor ≤ n * r.duration →
      ∃ result, ∀ m, n ≤ m → _loop client r m s = some result := by
  induction n with
  | zero =>
    intro s hs
    refine ⟨.ok s, fun m _ => ?_⟩
    have hle : r.endTimeMs ≤ s.cursor := by simpa using hs
    cases m with
    | zero => rw [_loop, if_pos hle]
    | succ m => rw [_loop, if_pos hle]
  | succ n ih =>
    intro s hs
    by_cases hle : r.endTimeMs ≤ s.cursor
    · refine ⟨.ok s, fun m _ => ?_⟩
      cases m with
      | zero => rw [_loop, if_pos hle]
      | succ m => rw [_loop, if_pos hle]
    cases hround : _round client r s with
    | error e =>
      refine ⟨.error e, fun m hm => ?_⟩
      obtain ⟨m, rfl⟩ := Nat.exists_eq_succ_of_ne_zero (by omega : m ≠ 0)
      rw [_loop, if_neg hle, hround]
    | ok round =>
      cases round with
      | finished s' =>
        refine ⟨.ok s', fun m hm => ?_⟩
        obtain ⟨m, rfl⟩ := Nat.exists_eq_succ_of_ne_zero (by omega : m ≠ 0)
        rw [_loop, if_neg hle, hround]
      | goesOn s' =>
        obtain ⟨page, read, -, hne, hread, rfl⟩ := _round_of_goesOn hround
        obtain ⟨last, -, -, ⟨hlow, -⟩, hcursor⟩ := exists_last hne hread
        obtain ⟨result, hresult⟩ := ih (s.turn r read) (by
          rw [hcursor]
          push_cast at hs
          linarith)
        refine ⟨result, fun m hm => ?_⟩
        obtain ⟨m, rfl⟩ := Nat.exists_eq_succ_of_ne_zero (by omega : m ≠ 0)
        rw [_loop, if_neg hle, hround]
        exact hresult m (by omega)

/-- The klines that were kept, as long as the cursor has not passed the range. -/
structure Kept (r : Request) (bound : ℤ) (rows : List (List Json)) (read : List (ℤ × List Json)) :
    Prop where
  rows_eq : rows = read.map Prod.snd
  increasing : (read.map Prod.fst).Pairwise (· < ·)
  range : ∀ x ∈ read, IsRow r r.startTimeMs x ∧ x.1 ∉ r.knownOpenTimes ∧ x.1 < bound

theorem Kept.turn {kept : List (ℤ × List Json)}
    (h : Kept r s.cursor s.collected kept) (hd : 0 < r.duration)
    (hstart : r.startTimeMs ≤ s.cursor) (hne : read ≠ []) (hread : Reads r s none page read) :
    Kept r (s.turn r read).cursor (s.turn r read).collected
      (kept ++ read.filter fun x => x.1 ∉ r.knownOpenTimes) := by
  obtain ⟨last, -, hlast, ⟨hlow, -⟩, hcursor⟩ := exists_last hne hread
  have hnew : ∀ x ∈ read.filter fun x => x.1 ∉ r.knownOpenTimes, x ∈ read ∧ x.1 ∉ r.knownOpenTimes := by
    intro x hx
    simpa using hx
  refine ⟨?_, ?_, ?_⟩
  · have hcollected : (s.turn r read).collected =
        s.collected ++ (read.filter fun x => x.1 ∉ r.knownOpenTimes).map Prod.snd := rfl
    rw [hcollected, h.rows_eq, map_append]
  · rw [map_append, pairwise_append]
    refine ⟨h.increasing, ?_, ?_⟩
    · exact Pairwise.sublist (filter_sublist.map _) hread.increasing
    · intro t ht u hu
      obtain ⟨x, hx, rfl⟩ := mem_map.mp ht
      obtain ⟨y, hy, rfl⟩ := mem_map.mp hu
      exact (h.range x hx).2.2.trans_le (hread.rows y (hnew y hy).1).lower
  · intro x hx
    rw [hcursor]
    rcases mem_append.mp hx with hx | hx
    · obtain ⟨hrow, hknown, hlt⟩ := h.range x hx
      exact ⟨hrow, hknown, by omega⟩
    · obtain ⟨hmem, hknown⟩ := hnew x hx
      have hrow := hread.rows x hmem
      have hle := hlast x hmem
      exact ⟨⟨hrow.toIsKline, hstart.trans hrow.lower, hrow.upper⟩, hknown, by omega⟩

/-- Whatever the client answers, the loop keeps what it collected in order. -/
theorem loop_kept (hd : 0 < r.duration) (n : ℕ) : ∀ {s s' : Progress} {kept : List (ℤ × List Json)},
    r.startTimeMs ≤ s.cursor → Kept r s.cursor s.collected kept →
      _loop client r n s = some (.ok s') → ∃ kept, Kept r s'.cursor s'.collected kept := by
  induction n with
  | zero =>
    intro s s' kept _ hkept h
    rw [_loop] at h
    split at h
    · cases h
      exact ⟨kept, hkept⟩
    · cases h
  | succ n ih =>
    intro s s' kept hstart hkept h
    rw [_loop] at h
    split at h
    · cases h
      exact ⟨kept, hkept⟩
    cases hround : _round client r s with
    | error e =>
      rw [hround] at h
      cases h
    | ok round =>
      rw [hround] at h
      cases round with
      | finished t =>
        cases h
        rw [_round_of_finished hround]
        exact ⟨kept, hkept⟩
      | goesOn t =>
        obtain ⟨page, read, -, hne, hread, rfl⟩ := _round_of_goesOn hround
        obtain ⟨last, -, -, ⟨hlow, -⟩, hcursor⟩ := exists_last hne hread
        exact ih (by rw [hcursor]; omega) (hkept.turn hd hstart hne hread) h

/-- The history of a pair: increasing klines on the grid. Candles may be missing from it. -/
structure IsHistory (duration : ℤ) (history : List (ℤ × List Json)) : Prop where
  increasing : (history.map Prod.fst).Pairwise (· < ·)
  klines : ∀ x ∈ history, IsKline duration x

/-- The client answers every proper request with the first klines of the range, as many as were
asked for or as fit on its own page. -/
def Serves (client : KlineClient) (pair : Symbol × Interval) (cap : ℕ)
    (history : List (ℤ × List Json)) : Prop :=
  ∀ limit startTime endTime, 1 ≤ limit → limit ≤ 1000 → 0 < startTime → startTime < endTime →
    client.klines pair limit startTime endTime =
      .ok (((between Prod.fst startTime (endTime + 1) history).take (min limit.toNat cap)).map
        fun x => .list x.2)

/-- The klines a download is to return. -/
def wanted (r : Request) (history : List (ℤ × List Json)) : List (ℤ × List Json) :=
  (between Prod.fst r.startTimeMs r.endTimeMs history).filter fun x => x.1 ∉ r.knownOpenTimes

/-- What the checks of the arguments guarantee. -/
structure Proper (r : Request) : Prop where
  start_pos : 0 < r.startTimeMs
  start_lt : r.startTimeMs < r.endTimeMs
  start_aligned : r.startTimeMs % r.duration = 0
  end_aligned : r.endTimeMs % r.duration = 0
  pageLimit : 1 ≤ r.pageLimit ∧ r.pageLimit ≤ 1000

theorem proper_of_validate (h : r.validate = .ok ()) : Proper r := by
  unfold Request.validate at h
  simp only [unit_bind_eq_ok, raiseIf_eq_ok, not_or, not_le, not_not] at h
  obtain ⟨hs, -, ⟨hlt, hsa, hea⟩, -, hp, -⟩ := h
  exact ⟨hs, hlt, hsa, hea, hp⟩

theorem duration_gt_one (r : Request) : 1 < r.duration := by
  unfold Request.duration
  cases r.pair.2 <;> decide

theorem add_duration_le {d a b : ℤ} (hd : 0 < d) (ha : a % d = 0) (hb : b % d = 0) (h : a < b) :
    a + d ≤ b := by
  obtain ⟨m, rfl⟩ := Int.dvd_of_emod_eq_zero ha
  obtain ⟨n, rfl⟩ := Int.dvd_of_emod_eq_zero hb
  have hmn : m < n := lt_of_mul_lt_mul_left h hd.le
  calc d * m + d = d * (m + 1) := by ring
    _ ≤ d * n := mul_le_mul_of_nonneg_left hmn hd.le

variable {history : List (ℤ × List Json)} {cap : ℕ}

/-- The loop variables while a history is served. -/
structure Served (r : Request) (history : List (ℤ × List Json)) (s : Progress) : Prop where
  aligned : s.cursor % r.duration = 0
  bounds : r.startTimeMs ≤ s.cursor ∧ s.cursor ≤ r.endTimeMs
  seen : ∀ t ∈ s.seenRemote, t < s.cursor
  collected : s.collected = ((between Prod.fst r.startTimeMs s.cursor history).filter
    fun x => x.1 ∉ r.knownOpenTimes).map Prod.snd

theorem answer_served (hr : Proper r) (hserves : Serves client r.pair cap history) (hcap : 1 ≤ cap)
    (hs : Served r history s) (hlt : s.cursor < r.endTimeMs) : ∃ m, 1 ≤ m ∧
      answer client r s = .ok (((between Prod.fst s.cursor r.endTimeMs history).take m).map
        fun x => .list x.2) := by
  have hd := duration_gt_one r
  have hremaining : 1 ≤ (r.endTimeMs - s.cursor) / r.duration := by
    rw [Int.le_ediv_iff_mul_le (by omega)]
    have := add_duration_le (by omega) hs.aligned hr.end_aligned hlt
    omega
  have hend := add_duration_le (by omega) hs.aligned hr.end_aligned hlt
  have h1 := hr.pageLimit
  have h2 := hr.start_pos
  have h3 := hs.bounds.1
  refine ⟨min (min r.pageLimit ((r.endTimeMs - s.cursor) / r.duration)).toNat cap, by omega, ?_⟩
  have h := hserves (min r.pageLimit ((r.endTimeMs - s.cursor) / r.duration)) s.cursor
    (r.endTimeMs - 1) (by omega) (by omega) (by omega) (by omega)
  rw [sub_add_cancel] at h
  exact h

theorem reads_served (hh : IsHistory r.duration history) (hs : Served r history s) (m : ℕ) :
    Reads r s none (((between Prod.fst s.cursor r.endTimeMs history).take m).map
      fun x => .list x.2) ((between Prod.fst s.cursor r.endTimeMs history).take m) where
  page_eq := rfl
  rows := by
    intro x hx
    obtain ⟨hmem, hlow, hup⟩ := mem_between.mp (mem_of_mem_take hx)
    exact ⟨hh.klines x hmem, hlow, hup⟩
  increasing := by
    have hsub : ((between Prod.fst s.cursor r.endTimeMs history).take m).Sublist history :=
      (take_sublist m _).trans filter_sublist
    exact Pairwise.sublist (hsub.map _) hh.increasing
  fresh := by
    intro x hx hseen
    obtain ⟨-, hlow, -⟩ := mem_between.mp (mem_of_mem_take hx)
    exact absurd (hs.seen x.1 hseen) (by omega)

/-- A round that reads the first missing klines keeps up with the history. -/
theorem Served.turn (hr : Proper r) (hh : IsHistory r.duration history) (hs : Served r history s)
    {m : ℕ} (hne : (between Prod.fst s.cursor r.endTimeMs history).take m ≠ []) :
    Served r history (s.turn r ((between Prod.fst s.cursor r.endTimeMs history).take m)) := by
  set rest := between Prod.fst s.cursor r.endTimeMs history with hrest
  have hd := duration_gt_one r
  have hread := reads_served hh hs m
  obtain ⟨last, hgetLast, hle, ⟨hlow, hup, hal⟩, hcursor⟩ := exists_last hne hread
  have hnext : last + r.duration ≤ r.endTimeMs := add_duration_le (by omega) hal hr.end_aligned hup
  have hsorted : (rest.map Prod.fst).Pairwise (· < ·) :=
    Pairwise.sublist (filter_sublist.map _) hh.increasing
  have hpage : rest.take m = between Prod.fst s.cursor (last + r.duration) rest := by
    apply take_eq_between hsorted hgetLast
    · intro x hx
      exact (mem_between.mp hx).2.1
    · intro x hx
      have hx' := (hh.klines x (mem_between.mp hx).1).aligned
      constructor
      · intro h
        by_contra hgt
        have := add_duration_le (by omega) hal hx' (by omega)
        omega
      · intro h
        omega
  have hfilter : between Prod.fst s.cursor (last + r.duration) rest =
      between Prod.fst s.cursor (last + r.duration) history := by
    rw [hrest]
    unfold between
    rw [filter_filter]
    apply filter_congr
    intro x _
    rw [Bool.eq_iff_iff]
    simp only [Bool.and_eq_true, decide_eq_true_eq]
    omega
  refine ⟨?_, ?_, ?_, ?_⟩
  · rw [hcursor, Int.add_emod_right]
    exact hal
  · rw [hcursor]
    have := hs.bounds.1
    exact ⟨by omega, hnext⟩
  · intro t ht
    rw [hcursor]
    have hseen : t ∈ s.seenRemote ++ (rest.take m).map Prod.fst := ht
    rcases mem_append.mp hseen with ht | ht
    · have := hs.seen t ht
      omega
    · obtain ⟨x, hx, rfl⟩ := mem_map.mp ht
      have := hle x hx
      omega
  · have hcollected : (s.turn r (rest.take m)).collected =
        s.collected ++ ((rest.take m).filter fun x => x.1 ∉ r.knownOpenTimes).map Prod.snd := rfl
    rw [hcollected, hs.collected, hcursor, hpage, hfilter, ← map_append, ← filter_append,
      ← between_append hh.increasing hs.bounds.1 (by omega)]

/-- The loop ends with every wanted kline. -/
theorem loop_served (hr : Proper r) (hh : IsHistory r.duration history)
    (hserves : Serves client r.pair cap history) (hcap : 1 ≤ cap) (n : ℕ) :
    ∀ {s : Progress}, Served r history s → r.endTimeMs - s.cursor ≤ n * r.duration →
      ∃ s', _loop client r n s = some (.ok s') ∧
        s'.collected = (wanted r history).map Prod.snd := by
  have hdone : ∀ {s : Progress}, Served r history s → r.endTimeMs ≤ s.cursor →
      s.collected = (wanted r history).map Prod.snd := by
    intro s hs hle
    have heq : s.cursor = r.endTimeMs := le_antisymm hs.bounds.2 hle
    rw [hs.collected, heq]
    rfl
  induction n with
  | zero =>
    intro s hs hn
    have hle : r.endTimeMs ≤ s.cursor := by simpa using hn
    exact ⟨s, by rw [_loop, if_pos hle], hdone hs hle⟩
  | succ n ih =>
    intro s hs hn
    by_cases hle : r.endTimeMs ≤ s.cursor
    · exact ⟨s, by rw [_loop, if_pos hle], hdone hs hle⟩
    obtain ⟨m, hm, hanswer⟩ := answer_served hr hserves hcap hs (not_le.mp hle)
    by_cases hempty : between Prod.fst s.cursor r.endTimeMs history = []
    · -- nothing is left, and the page is empty
      rw [hempty, take_nil] at hanswer
      refine ⟨{ s with pages := s.pages + 1 }, ?_, ?_⟩
      · rw [_loop, if_neg hle, _round_of_empty hanswer]
      · have hall := between_append hh.increasing hs.bounds.1 hs.bounds.2
        rw [hempty, append_nil] at hall
        unfold wanted
        rw [hall]
        exact hs.collected
    · have hne : (between Prod.fst s.cursor r.endTimeMs history).take m ≠ [] := by
        intro hnil
        rcases take_eq_nil_iff.mp hnil with h | h
        · omega
        · exact hempty h
      have hread := reads_served hh hs m
      obtain ⟨last, -, -, ⟨hlow, -⟩, hcursor⟩ := exists_last hne hread
      obtain ⟨s', hs', hrows⟩ := ih (hs.turn hr hh hne) (by
        rw [hcursor]
        push_cast at hn
        linarith)
      refine ⟨s', ?_, hrows⟩
      have hd := duration_gt_one r
      rw [_loop, if_neg hle, _round_of_reads (by omega) hanswer hne hread]
      exact hs'

def Request.requestedCount (r : Request) : ℕ :=
  ((r.endTimeMs - r.startTimeMs) / r.duration).toNat

theorem Proper.enough (hr : Proper r) {n : ℕ} (hn : r.requestedCount ≤ n) :
    r.endTimeMs - r.startTimeMs ≤ n * r.duration := by
  have hd := duration_gt_one r
  have hdvd : r.duration ∣ r.endTimeMs - r.startTimeMs :=
    (Int.dvd_of_emod_eq_zero hr.end_aligned).sub (Int.dvd_of_emod_eq_zero hr.start_aligned)
  have hcount : (r.endTimeMs - r.startTimeMs) / r.duration ≤ n := Int.toNat_le.mp hn
  calc r.endTimeMs - r.startTimeMs
      = (r.endTimeMs - r.startTimeMs) / r.duration * r.duration := (Int.ediv_mul_cancel hdvd).symm
    _ ≤ n * r.duration := mul_le_mul_of_nonneg_right hcount (by omega)

/-- What `download_range` guarantees against any client, and against a serving one. -/
structure Complete (client : KlineClient) (r : Request) : Prop where
  terminates : ∃ result, ∀ rounds, r.requestedCount ≤ rounds →
    downloadRange client r rounds = some result
  kept : ∀ rounds batch, downloadRange client r rounds = some (.ok batch) →
    ∃ kept, Kept r r.endTimeMs batch.rows kept
  served : ∀ cap history, 1 ≤ cap → IsHistory r.duration history →
    Serves client r.pair cap history → r.validate = .ok () →
      ∃ batch, (∀ rounds, r.requestedCount ≤ rounds →
        downloadRange client r rounds = some (.ok batch)) ∧
        batch.rows = (wanted r history).map Prod.snd

theorem Served.start (hr : Proper r) (history : List (ℤ × List Json)) :
    Served r history (.start r) where
  aligned := hr.start_aligned
  bounds := ⟨le_refl r.startTimeMs, hr.start_lt.le⟩
  seen := by
    intro t ht
    cases ht
  collected := by
    change [] = _
    have hnil : between Prod.fst r.startTimeMs (Progress.start r).cursor history = [] :=
      between_self _ _
    rw [hnil]
    rfl

/-- **Completeness of a download.** -/
theorem download_range_complete (client : KlineClient) (r : Request) : Complete client r := by
  have hd := duration_gt_one r
  refine ⟨?_, ?_, ?_⟩
  · unfold downloadRange
    cases hv : r.validate with
    | error e => exact ⟨.error e, fun _ _ => rfl⟩
    | ok u =>
      have hr := proper_of_validate hv
      obtain ⟨result, hresult⟩ := loop_terminates client r r.requestedCount (.start r)
        (hr.enough le_rfl)
      refine ⟨result.map r.batch, fun rounds hle => ?_⟩
      rw [hresult rounds hle]
      rfl
  · intro rounds batch h
    unfold downloadRange at h
    cases hv : r.validate with
    | error e =>
      rw [hv] at h
      cases h
    | ok u =>
      rw [hv] at h
      obtain ⟨result, hloop, hmap⟩ := Option.map_eq_some_iff.mp h
      cases result with
      | error e => cases hmap
      | ok s =>
        cases hmap
        have hempty : Kept r (Progress.start r).cursor (Progress.start r).collected [] :=
          ⟨rfl, List.Pairwise.nil, fun x hx => by cases hx⟩
        obtain ⟨kept, hkept⟩ := loop_kept (by omega) rounds (le_refl r.startTimeMs) hempty hloop
        refine ⟨kept, hkept.rows_eq, hkept.increasing, fun x hx => ?_⟩
        obtain ⟨hrow, hknown, -⟩ := hkept.range x hx
        exact ⟨hrow, hknown, hrow.upper⟩
  · intro cap history hcap hh hserves hv
    have hr := proper_of_validate hv
    obtain ⟨result, hresult⟩ := loop_terminates client r r.requestedCount (.start r)
      (hr.enough le_rfl)
    obtain ⟨s, hs, hrows⟩ := loop_served hr hh hserves hcap r.requestedCount
      (Served.start hr history) (hr.enough le_rfl)
    have hsame : result = .ok s := Option.some.inj ((hresult _ le_rfl).symm.trans hs)
    refine ⟨r.batch s, fun rounds hle => ?_, hrows⟩
    unfold downloadRange
    rw [hv]
    dsimp only
    rw [hresult rounds hle, hsame]
    rfl

def emptyClient : KlineClient := ⟨fun _ _ _ _ => .ok []⟩

def widePages : Request where
  pair := (.btcusdt, .m15)
  startTimeMs := 900000
  endTimeMs := 1800000
  pageLimit := 1001

/-- A page limit above a thousand is refused, whatever the client serves. -/
theorem not_every_page_limit :
    ¬ ∀ (client : KlineClient) (r : Request) (cap : ℕ) (history : List (ℤ × List Json)),
      1 ≤ r.pageLimit → Request.validate { r with pageLimit := 1000 } = .ok () → 1 ≤ cap →
        IsHistory r.duration history → Serves client r.pair cap history →
          ∃ rounds batch, downloadRange client r rounds = some (.ok batch) ∧
            batch.rows = (wanted r history).map Prod.snd := by
  intro law
  have hserves : Serves emptyClient widePages.pair 1 [] := by
    intro limit startTime endTime _ _ _ _
    have hnil : between Prod.fst startTime (endTime + 1) ([] : List (ℤ × List Json)) = [] := rfl
    rw [hnil, List.take_nil]
    rfl
  obtain ⟨rounds, batch, h, -⟩ := law emptyClient widePages 1 [] (by decide) (by decide) le_rfl
    ⟨List.Pairwise.nil, fun x hx => by cases hx⟩ hserves
  have hv : widePages.validate = .error ⟨"page_limit must be between 1 and 1000"⟩ := by decide
  unfold downloadRange at h
  rw [hv] at h
  cases h

end Download

end TradingLab
