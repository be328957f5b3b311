import TradingLab.Json.Number
import TradingLab.Json.RoundTrip

/-!
# Members of dictionaries

Dictionaries keep their members in order of their keys, so that one is determined
by what remains without a key and the value of that key. A value has a text when
its numbers are finite and its integers are not too long to be written.
-/

theorem mem_lookup_of_nodup {α β : Type} [BEq α] [LawfulBEq α] {index : List (α × β)} {a : α} {b : β}
    (h : (index.map Prod.fst).Nodup) : b ∈ (index.lookup a).toList ↔ (a, b) ∈ index := by
  induction index with
  | nil => simp
  | cons e index ih =>
    obtain ⟨c, d⟩ := e
    rw [List.map_cons, List.nodup_cons] at h
    rw [List.lookup_cons, List.mem_cons]
    by_cases hac : a = c
    · subst hac
      have hout : (a, b) ∉ index := fun hmem => h.1 (List.mem_map.mpr ⟨_, hmem, rfl⟩)
      simp [hout]
    · rw [beq_eq_false_iff_ne.mpr hac]
      simpa [hac] using ih h.2

namespace JsonMembers

def erase (key : String) : JsonMembers → JsonMembers
  | .nil => .nil
  | .cons k v ms => if key = k then ms else .cons k v (erase key ms)

theorem lookup_insert (key : String) (value : Json) (k : String) (ms : JsonMembers) :
    (ms.insert key value).lookup k = if k = key then some value else ms.lookup k := by
  cases ms with
  | nil => rfl
  | cons l v ms =>
    have ih := lookup_insert key value k ms
    rw [insert]
    by_cases hkl : key = l
    · subst hkl
      rw [if_pos rfl, lookup, lookup]
      split
      · rfl
      · rfl
    · rw [if_neg hkl]
      split
      · rw [lookup]
      · rw [lookup, ih, lookup]
        by_cases hk : k = key
        · rw [if_pos hk, if_pos hk, if_neg (hk ▸ hkl)]
        · rw [if_neg hk, if_neg hk]

theorem erase_insert (key : String) (value : Json) : ∀ ms : JsonMembers, ms.lookup key = none →
    (ms.insert key value).erase key = ms
  | .nil, _ => by rw [insert, erase, if_pos rfl]
  | .cons l v ms, h => by
    have ih := erase_insert key value ms
    rw [lookup] at h
    by_cases hl : key = l
    · rw [if_pos hl] at h
      cases h
    · rw [if_neg hl] at h
      rw [insert, if_neg hl]
      split
      · rw [erase, if_pos rfl]
      · rw [erase, if_neg hl, ih h]

def Sorted : JsonMembers → Prop
  | .nil => True
  | .cons k _ ms => ms.Above k ∧ ms.Sorted

variable {ms : JsonMembers}

theorem Sorted.insert {k : String} {value : Json} (h : ms.Sorted) :
    (ms.insert k value).Sorted :=
  insert_ordered (C := Sorted) (Q := fun _ => True) trivial (fun _ _ _ => by simp [Sorted]) h trivial

theorem lookup_of_above {key : String} : ∀ {ms : JsonMembers}, ms.Above key → ms.lookup key = none
  | .nil, _ => rfl
  | .cons k v ms, h => by
    have hne : key ≠ k := by
      rintro rfl
      rw [Above, Json.keyLt_irrefl] at h
      cases h.1
    rw [lookup, if_neg hne, lookup_of_above h.2]

theorem above_erase {key k : String} : ∀ {ms : JsonMembers}, ms.Above key → (ms.erase k).Above key
  | .nil, _ => trivial
  | .cons l v ms, h => by
    rw [erase]
    split
    · exact h.2
    · exact ⟨h.1, above_erase h.2⟩

theorem Sorted.erase {k : String} : ∀ {ms : JsonMembers}, ms.Sorted → (ms.erase k).Sorted
  | .nil, _ => trivial
  | .cons l v ms, h => by
    rw [JsonMembers.erase]
    split
    · exact h.2
    · exact ⟨above_erase h.1, Sorted.erase h.2⟩

theorem lookup_erase_self {k : String} : ∀ {ms : JsonMembers}, ms.Sorted →
    (ms.erase k).lookup k = none
  | .nil, _ => rfl
  | .cons l v ms, h => by
    rw [erase]
    split
    · rename_i hl
      subst hl
      exact lookup_of_above h.1
    · rename_i hl
      rw [lookup, if_neg hl, lookup_erase_self h.2]

theorem lookup_erase_ne {k j : String} (hne : j ≠ k) (ms : JsonMembers) :
    (ms.erase k).lookup j = ms.lookup j := by
  cases ms with
  | nil => rfl
  | cons l v ms =>
    rw [erase]
    split
    · rename_i hl
      rw [lookup, if_neg (hl ▸ hne)]
    · rw [lookup, lookup, lookup_erase_ne hne ms]

theorem insert_of_above {k : String} {value : Json} : ∀ {ms : JsonMembers}, ms.Above k →
    ms.insert k value = .cons k value ms
  | .nil, _ => rfl
  | .cons l v ms, h => by
    have hne : k ≠ l := by
      rintro rfl
      rw [Above, Json.keyLt_irrefl] at h
      cases h.1
    rw [insert, if_neg hne, if_pos h.1]

theorem insert_erase {k : String} {value : Json} : ∀ {ms : JsonMembers}, ms.Sorted →
    ms.lookup k = some value → (ms.erase k).insert k value = ms
  | .cons l v ms, hms, h => by
    rw [lookup] at h
    by_cases hl : k = l
    · subst hl
      rw [if_pos rfl] at h
      cases h
      rw [erase, if_pos rfl, insert_of_above hms.1]
    · rw [if_neg hl] at h
      have hlt : keyLt k.toList l.toList = false := by
        by_contra hk
        rw [Bool.not_eq_false] at hk
        rw [lookup_of_above (hms.1.trans hk)] at h
        cases h
      rw [erase, if_neg hl, insert, if_neg hl, hlt, if_neg Bool.false_ne_true,
        insert_erase hms.2 h]

theorem eq_of_lookup : ∀ {ns : JsonMembers}, ms.Sorted → ns.Sorted →
    (∀ key, ms.lookup key = ns.lookup key) → ms = ns := by
  induction ms using JsonMembers.keys.induct with
  | case1 =>
    intro ns _ _ h
    cases ns with
    | nil => rfl
    | cons k v ns =>
      have hk := h k
      rw [lookup, lookup, if_pos rfl] at hk
      cases hk
  | case2 k v ms ih =>
    intro ns hms hns h
    have hk := h k
    rw [lookup, if_pos rfl] at hk
    have herase : ms = ns.erase k := by
      apply ih hms.2 hns.erase
      intro key
      by_cases hkey : key = k
      · rw [hkey, lookup_of_above hms.1, lookup_erase_self hns]
      · rw [lookup_erase_ne hkey, ← h key, lookup, if_neg hkey]
    have habove : (ns.erase k).Above k := herase ▸ hms.1
    rw [herase, ← insert_of_above habove, insert_erase hns hk.symm]

theorem Sorted.foldl_insert (entries : List (String × Json)) (h : ms.Sorted) :
    (entries.foldl (fun members entry => members.insert entry.1 entry.2) ms).Sorted := by
  induction entries generalizing ms with
  | nil => exact h
  | cons entry entries ih => exact ih h.insert

theorem lookup_foldl_insert {entries : List (String × Json)} (hnodup : (entries.map Prod.fst).Nodup)
    (key : String) (ms : JsonMembers) :
    (entries.foldl (fun members entry => members.insert entry.1 entry.2) ms).lookup key =
      (entries.lookup key).or (ms.lookup key) := by
  induction entries generalizing ms with
  | nil => rfl
  | cons entry entries ih =>
    rw [List.map_cons, List.nodup_cons] at hnodup
    rw [List.foldl_cons, ih hnodup.2, lookup_insert, List.lookup_cons]
    by_cases hkey : key = entry.1
    · have hnone : entries.lookup key = none := by
        rw [List.lookup_eq_none_iff]
        intro other hother
        rw [hkey, bne_iff_ne]
        intro heq
        exact hnodup.1 (heq ▸ List.mem_map_of_mem hother)
      rw [if_pos hkey, hnone, hkey]
      simp
    · have hbeq : (key == entry.1) = false := by simpa using hkey
      rw [if_neg hkey, hbeq]

end JsonMembers

namespace Json

mutual

/-- A number in the value is not finite, so that the value has no text. -/
def hasNonFinite : Json → Bool
  | .float literal =>
      match Binary64.ofLiteral literal with
      | .finite _ _ => false
      | _ => true
  | .array xs => itemsHaveNonFinite xs
  | .object ms => membersHaveNonFinite ms
  | _ => false

def itemsHaveNonFinite : JsonItems → Bool
  | .nil => false
  | .cons x xs => x.hasNonFinite || itemsHaveNonFinite xs

def membersHaveNonFinite : JsonMembers → Bool
  | .nil => false
  | .cons _ v ms => v.hasNonFinite || membersHaveNonFinite ms

end

mutual

theorem same_self : ∀ {v : Json}, v.hasNonFinite = false → v.same v = true
  | .null, _ => rfl
  | .bool b, _ => by simp [same, number?, Number.same]
  | .int n, _ => by simp [same, number?, Number.same]
  | .str s, _ => by simp [same]
  | .float literal, h => by
    rw [hasNonFinite] at h
    rw [same, number?]
    cases hvalue : Binary64.ofLiteral literal with
    | finite negative magnitude => simp [Number.same]
    | infinite negative => simp [hvalue] at h
    | nan => simp [hvalue] at h
    all_goals simp
  | .array xs, h => sameItems_self h
  | .object ms, h => sameMembers_self h

theorem sameItems_self : ∀ {xs : JsonItems}, itemsHaveNonFinite xs = false → sameItems xs xs = true
  | .nil, _ => rfl
  | .cons x xs, h => by
    rw [itemsHaveNonFinite, Bool.or_eq_false_iff] at h
    rw [sameItems, same_self h.1, sameItems_self h.2]
    rfl

theorem sameMembers_self : ∀ {ms : JsonMembers}, membersHaveNonFinite ms = false →
    sameMembers ms ms = true
  | .nil, _ => rfl
  | .cons k v ms, h => by
    rw [membersHaveNonFinite, Bool.or_eq_false_iff] at h
    rw [sameMembers, same_self h.1, sameMembers_self h.2]
    simp

end

variable {key : String} {value : Json} {xs : List Json}

/-- Inserting keeps a condition on every value. -/
theorem insert_all {C : JsonMembers → Prop} {Q : Json → Prop} (hnil : C .nil)
    (hcons : ∀ k v ms, C (.cons k v ms) ↔ Q v ∧ C ms) (hv : Q value)
    (ms : JsonMembers) (h : C ms) : C (ms.insert key value) := by
  induction ms using JsonMembers.insert.induct key with
  | case1 => exact (hcons _ _ _).mpr ⟨hv, hnil⟩
  | case2 v ms =>
    rw [JsonMembers.insert, if_pos rfl]
    exact (hcons _ _ _).mpr ⟨hv, ((hcons _ _ _).mp h).2⟩
  | case3 j v ms hne hlt =>
    rw [JsonMembers.insert, if_neg hne, if_pos hlt]
    exact (hcons _ _ _).mpr ⟨hv, h⟩
  | case4 j v ms hne hlt ih =>
    obtain ⟨hvalue, hms⟩ := (hcons _ _ _).mp h
    rw [JsonMembers.insert, if_neg hne, if_neg hlt]
    exact (hcons _ _ _).mpr ⟨hvalue, ih hms⟩

theorem ofList_all {C : JsonItems → Prop} {Q : Json → Prop} (hnil : C .nil)
    (hcons : ∀ x xs, C (.cons x xs) ↔ Q x ∧ C xs) (h : ∀ x ∈ xs, Q x) :
    C (.ofList xs) := by
  induction xs with
  | nil => exact hnil
  | cons x xs ih =>
    exact (hcons _ _).mpr
      ⟨h x List.mem_cons_self, ih fun y hy => h y (List.mem_cons_of_mem _ hy)⟩

theorem membersHaveNonFinite_insert (hv : value.hasNonFinite = false)
    (ms : JsonMembers) : membersHaveNonFinite ms = false →
      membersHaveNonFinite (ms.insert key value) = false :=
  insert_all (C := fun ms => membersHaveNonFinite ms = false) rfl
    (fun _ _ _ => by rw [membersHaveNonFinite, Bool.or_eq_false_iff]) hv ms

theorem hasNonFinite_list (h : ∀ x ∈ xs, x.hasNonFinite = false) :
    (list xs).hasNonFinite = false :=
  ofList_all (C := fun xs => itemsHaveNonFinite xs = false) rfl
    (fun _ _ => by rw [itemsHaveNonFinite, Bool.or_eq_false_iff]) h

mutual

/-- An integer in the value is too long to be written. -/
def hasLongInteger : Json → Bool
  | .int n => decide (maxIntDigits < (Nat.toDigits 10 n.natAbs).length)
  | .array xs => itemsHaveLongInteger xs
  | .object ms => membersHaveLongInteger ms
  | _ => false

def itemsHaveLongInteger : JsonItems → Bool
  | .nil => false
  | .cons x xs => x.hasLongInteger || itemsHaveLongInteger xs

def membersHaveLongInteger : JsonMembers → Bool
  | .nil => false
  | .cons _ v ms => v.hasLongInteger || membersHaveLongInteger ms

end

theorem membersHaveLongInteger_insert
    (hv : value.hasLongInteger = false) (ms : JsonMembers) : membersHaveLongInteger ms = false →
      membersHaveLongInteger (ms.insert key value) = false :=
  insert_all (C := fun ms => membersHaveLongInteger ms = false) rfl
    (fun _ _ _ => by rw [membersHaveLongInteger, Bool.or_eq_false_iff]) hv ms

theorem hasLongInteger_list (h : ∀ x ∈ xs, x.hasLongInteger = false) :
    (list xs).hasLongInteger = false :=
  ofList_all (C := fun xs => itemsHaveLongInteger xs = false) rfl
    (fun _ _ => by rw [itemsHaveLongInteger, Bool.or_eq_false_iff]) h

theorem hasLongInteger_of_lookup {key : String} {value : Json} : ∀ {ms : JsonMembers},
    membersHaveLongInteger ms = false → ms.lookup key = some value → value.hasLongInteger = false
  | .cons l v ms, h, hvalue => by
    rw [membersHaveLongInteger, Bool.or_eq_false_iff] at h
    rw [JsonMembers.lookup] at hvalue
    split at hvalue
    · cases hvalue
      exact h.1
    · exact hasLongInteger_of_lookup h.2 hvalue

theorem hasLongInteger_int {n : ℕ} (h : n < 10 ^ maxIntDigits) : (int n).hasLongInteger = false := by
  rw [hasLongInteger, decide_eq_false_iff_not, not_lt]
  exact (Nat.length_toDigits_le_iff (by decide) (by decide)).mpr h

end Json

mutual

/-- A value in memory: keys in order, every floating-point number by the literal that is
written for it. -/
def Json.Held : Json → Prop
  | .float literal => (Json.Binary64.ofLiteral literal).repr = literal
  | .array xs => xs.Held
  | .object ms => ms.Held
  | _ => True

def JsonItems.Held : JsonItems → Prop
  | .nil => True
  | .cons x xs => x.Held ∧ xs.Held

def JsonMembers.Held : JsonMembers → Prop
  | .nil => True
  | .cons k v ms => ms.Above k ∧ v.Held ∧ ms.Held

end

mutual

theorem Json.Held.normal : ∀ {v : Json}, v.Held → v.normal = v
  | .null, _ => rfl
  | .bool _, _ => rfl
  | .int _, _ => rfl
  | .float _, h => congrArg Json.float h
  | .str _, _ => rfl
  | .array _, h => congrArg Json.array (JsonItems.Held.normal h)
  | .object _, h => congrArg Json.object (JsonMembers.Held.normal h)

theorem JsonItems.Held.normal : ∀ {xs : JsonItems}, xs.Held → Json.normalItems xs = xs
  | .nil, _ => rfl
  | .cons x xs, h => by
    rw [Json.normalItems, Json.Held.normal h.1, JsonItems.Held.normal h.2]

theorem JsonMembers.Held.normal : ∀ {ms : JsonMembers}, ms.Held → Json.normalMembers ms = ms
  | .nil, _ => rfl
  | .cons k v ms, h => by
    rw [Json.normalMembers, Json.Held.normal h.2.1, JsonMembers.Held.normal h.2.2]

end

namespace JsonMembers

theorem Held.sorted : ∀ {ms : JsonMembers}, ms.Held → ms.Sorted
  | .nil, _ => trivial
  | .cons _ _ _, h => ⟨h.1, Held.sorted h.2.2⟩

variable {ms : JsonMembers}

theorem Held.insert {k : String} {value : Json} (hms : ms.Held)
    (hv : value.Held) : (ms.insert k value).Held :=
  insert_ordered (C := Held) trivial (fun _ _ _ => Iff.rfl) hms hv

theorem Held.insert_str {k : String} (text : String) (hms : ms.Held) :
    (ms.insert k (.str text)).Held := by
  apply hms.insert
  exact trivial

theorem Held.foldl_insert {entries : List (String × Json)} (h : ∀ e ∈ entries, e.2.Held)
    (hms : ms.Held) :
    (entries.foldl (fun members entry => members.insert entry.1 entry.2) ms).Held := by
  induction entries generalizing ms with
  | nil => exact hms
  | cons entry entries ih =>
    exact ih (fun e he => h e (List.mem_cons_of_mem entry he))
      (hms.insert (h entry List.mem_cons_self))

theorem Held.erase {k : String} : ∀ {ms : JsonMembers}, ms.Held → (ms.erase k).Held
  | .nil, _ => trivial
  | .cons l v ms, h => by
    rw [JsonMembers.erase]
    split
    · exact h.2.2
    · exact ⟨above_erase h.1, h.2.1, Held.erase h.2.2⟩

theorem Held.lookup {k : String} {v : Json} : ∀ {ms : JsonMembers}, ms.Held →
    ms.lookup k = some v → v.Held
  | .cons l w ms, h, hv => by
    rw [JsonMembers.lookup] at hv
    split at hv
    · cases hv
      exact h.2.1
    · exact Held.lookup h.2.2 hv

end JsonMembers

namespace Json

theorem held_list {xs : List Json} (h : ∀ x ∈ xs, x.Held) : (list xs).Held :=
  ofList_all (C := JsonItems.Held) trivial (fun _ _ => Iff.rfl) h

variable {entries : List (String × Json)}

theorem held_dict (h : ∀ e ∈ entries, e.2.Held) :
    (dict entries).Held := by
  rw [dict, Held]
  exact JsonMembers.Held.foldl_insert h trivial

theorem hasNonFinite_dict (h : ∀ e ∈ entries, e.2.hasNonFinite = false) :
    (dict entries).hasNonFinite = false := by
  suffices hs : ∀ ms : JsonMembers, membersHaveNonFinite ms = false →
      membersHaveNonFinite (entries.foldl (fun ms e => ms.insert e.1 e.2) ms) = false from hs .nil rfl
  induction entries with
  | nil => exact fun ms hms => hms
  | cons e entries ih =>
    intro ms hms
    exact ih (fun d hd => h d (List.mem_cons_of_mem _ hd)) _
      (membersHaveNonFinite_insert (h e List.mem_cons_self) _ hms)

theorem get?_dict (hnodup : (entries.map Prod.fst).Nodup)
    (key : String) : (dict entries).get? key = entries.lookup key := by
  change (entries.foldl (fun ms e => ms.insert e.1 e.2) JsonMembers.nil).lookup key = _
  rw [JsonMembers.lookup_foldl_insert hnodup]
  exact Option.or_none

end Json
