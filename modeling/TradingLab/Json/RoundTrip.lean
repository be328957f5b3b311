import TradingLab.Json.Parser
import Mathlib.Tactic.FinCases

/-!
# Reading back the canonical text

A canonical value is one the canonical text can be read back from: its keys are
in order, its integers are not too long for the reader and it has no
floating-point numbers. Reading is then the inverse of writing, so that no two
canonical values share a text.
-/

namespace Json

def Delimited (rest : List Char) : Prop :=
  rest = [] ∨ ∃ c cs, rest = c :: cs ∧ (c = ',' ∨ c = ']' ∨ c = '}')

variable {ds rest cs es : List Char} {n : ℕ} {c : Char}

theorem takeDigits_append (hd : ∀ c ∈ ds, c.isDigit) (hr : Delimited rest) :
    takeDigits (ds ++ rest) = (ds, rest) := by
  have hrest : rest.takeWhile Char.isDigit = [] ∧ rest.dropWhile Char.isDigit = rest := by
    rcases hr with rfl | ⟨c, cs, rfl, rfl | rfl | rfl⟩ <;> simp
  unfold takeDigits
  rw [List.takeWhile_append_of_pos hd, List.dropWhile_append_of_pos hd, hrest.1, hrest.2,
    List.append_nil]

theorem readWhole_toDigits (n : ℕ) (hr : Delimited rest) :
    readWhole (Nat.toDigits 10 n ++ rest) = some (Nat.toDigits 10 n, rest) := by
  have hne : Nat.toDigits 10 n ≠ [] := Nat.toDigits_ne_nil
  unfold readWhole
  rw [List.head?_append_of_ne_nil _ hne]
  split_ifs with h
  · rw [head_toDigits h]
    rfl
  · rw [takeDigits_append (fun c hc => isDigit_of_mem hc) hr]
    cases hd : Nat.toDigits 10 n with
    | nil => exact (hne hd).elim
    | cons d ds => rfl

theorem readFraction_of_delimited (hr : Delimited rest) :
    readFraction rest = ([], rest) := by
  rcases hr with rfl | ⟨c, cs, rfl, rfl | rfl | rfl⟩ <;> rfl

theorem readExponent_of_delimited (hr : Delimited rest) :
    readExponent rest = ([], rest) := by
  rcases hr with rfl | ⟨c, cs, rfl, rfl | rfl | rfl⟩ <;> rfl

theorem readUnsigned_toDigits (negative : Bool) (hr : Delimited rest)
    (hn : (Nat.toDigits 10 n).length ≤ maxIntDigits) :
    readUnsigned negative (Nat.toDigits 10 n ++ rest) =
      some (.int (if negative then -n else n), rest) := by
  unfold readUnsigned
  rw [readWhole_toDigits n hr]
  simp only [readFraction_of_delimited hr, readExponent_of_delimited hr, and_self, if_true]
  rw [if_neg (by omega), digitsValue_toDigits]

theorem readLiteral_digits {d : Char} (hd : d.isDigit) :
    readLiteral (d :: ds) = none ∧ readLiteral ('-' :: d :: ds) = none := by
  have h : ∀ c ∈ ['n', 't', 'f', 'N', 'I', '-'], c ≠ d := by
    rintro c hc rfl
    revert hd
    fin_cases hc <;> decide
  simp only [List.mem_cons, List.not_mem_nil, or_false, forall_eq_or_imp, forall_eq] at h
  obtain ⟨h1, h2, h3, h4, h5, h6⟩ := h
  constructor
  · simp [readLiteral, literals, List.isPrefixOf, h1, h2, h3, h4, h5, h6]
  · simp [readLiteral, literals, List.isPrefixOf, h5]

theorem readScalar_int {n : ℤ} (hr : Delimited rest)
    (hn : (Nat.toDigits 10 n.natAbs).length ≤ maxIntDigits) :
    readScalar (intChars n ++ rest) = some (.int n, rest) := by
  have hne : Nat.toDigits 10 n.natAbs ≠ [] := Nat.toDigits_ne_nil
  obtain ⟨d, ds, hd⟩ := List.exists_cons_of_ne_nil hne
  have hdig : d.isDigit := isDigit_of_mem (n := n.natAbs) (by rw [hd]; simp)
  have hminus : d ≠ '-' := by
    rintro rfl
    revert hdig
    decide
  obtain ⟨hl1, hl2⟩ := @readLiteral_digits (ds ++ rest) d hdig
  unfold readScalar intChars
  split_ifs with h
  · rw [hd, List.cons_append, List.cons_append, hl2]
    simp only [readNumber, List.head?_cons, if_true, List.tail_cons]
    rw [← List.cons_append, ← hd, readUnsigned_toDigits true hr hn]
    simp only [if_true]
    congr 3
    omega
  · rw [hd, List.cons_append, hl1]
    simp only [readNumber, List.head?_cons, Option.some.injEq, hminus, if_false]
    rw [← List.cons_append, ← hd, readUnsigned_toDigits false hr hn]
    simp only [Bool.false_eq_true, if_false]
    congr 3
    omega

theorem hexValue_hexChar : ∀ n < 16, hexValue (hexChar n) = some n := by decide

theorem readUnit_unitChars (hn : n < 65536) (rest : List Char) :
    readUnit ((unitChars n).drop 2 ++ rest) = some (n, rest) := by
  have h1 := hexValue_hexChar (n / 4096 % 16) (by omega)
  have h2 := hexValue_hexChar (n / 256 % 16) (by omega)
  have h3 := hexValue_hexChar (n / 16 % 16) (by omega)
  have h4 := hexValue_hexChar (n % 16) (by omega)
  simp only [unitChars, List.drop_succ_cons, List.drop_zero, List.cons_append, List.nil_append,
    readUnit, h1, h2, h3, h4, bind, Option.bind, pure]
  congr 2
  omega

theorem readLowUnit_unitChars (h0 : 0xdc00 ≤ n) (h1 : n ≤ 0xdfff) (rest : List Char) :
    readLowUnit (unitChars n ++ rest) = some (n, rest) := by
  have htake : List.take 2 (unitChars n ++ rest) = ['\\', 'u'] := rfl
  have hdrop : List.drop 2 (unitChars n ++ rest) = (unitChars n).drop 2 ++ rest := rfl
  unfold readLowUnit
  rw [if_pos htake, hdrop, readUnit_unitChars (by omega)]
  simp only [h0, h1, and_self, if_true]

theorem readUnicode_pair {high low : ℕ} (h0 : 0xd800 ≤ high) (h1 : high ≤ 0xdbff)
    (l0 : 0xdc00 ≤ low) (l1 : low ≤ 0xdfff) (rest : List Char) :
    readUnicode ((unitChars high).drop 2 ++ (unitChars low ++ rest)) =
      some (Char.ofNat (0x10000 + (high - 0xd800) * 1024 + (low - 0xdc00)), rest) := by
  unfold readUnicode
  rw [readUnit_unitChars (by omega)]
  simp only [h0, h1, and_self, if_true, readLowUnit_unitChars l0 l1]

theorem readEscape_unitChars (n : ℕ) (rest : List Char) :
    readEscape ((unitChars n).tail ++ rest) = readUnicode ((unitChars n).drop 2 ++ rest) := rfl

theorem readUnicode_single (h : c.toNat < 65536) (rest : List Char) :
    readUnicode ((unitChars c.toNat).drop 2 ++ rest) = some (c, rest) := by
  have hv : c.toNat < 0xd800 ∨ 0xdfff < c.toNat := by
    rcases c.valid with hv | ⟨hv, -⟩
    · exact .inl hv
    · exact .inr hv
  unfold readUnicode
  rw [readUnit_unitChars h]
  dsimp only
  rw [if_neg (by omega), Char.ofNat_toNat]

theorem readString_escape {e : List Char} (h : readEscape (e ++ cs) = some (c, rest)) :
    readString (n + 1) ('\\' :: (e ++ cs)) = (readString n rest).map fun r => (c :: r.1, r.2) := by
  rw [readString, if_neg (by decide), if_pos rfl, h]

theorem readString_unitChars {u : ℕ}
    (h : readUnicode ((unitChars u).drop 2 ++ cs) = some (c, rest)) :
    readString (n + 1) (unitChars u ++ cs) =
      (readString n rest).map fun r => (c :: r.1, r.2) :=
  readString_escape (e := (unitChars u).tail) (by rw [readEscape_unitChars, h])

theorem toNat_lt (c : Char) : c.toNat < 1114112 := by
  rcases c.valid with h | ⟨-, h⟩
  · exact Nat.lt_of_lt_of_le h (by decide)
  · exact h

/-- An escaped character is read as itself. -/
theorem readString_escapeChar (n : ℕ) (c : Char) (cs : List Char) :
    readString (n + 1) (escapeChar c ++ cs) =
      (readString n cs).map fun r => (c :: r.1, r.2) := by
  unfold escapeChar
  split_ifs with h1 h2 h3 h4 h5 h6 h7 h8 h9
  · subst h1
    exact readString_escape (e := ['"']) rfl
  · subst h2
    exact readString_escape (e := ['\\']) rfl
  · subst h3
    exact readString_escape (e := ['n']) rfl
  · subst h4
    exact readString_escape (e := ['r']) rfl
  · subst h5
    exact readString_escape (e := ['t']) rfl
  · have : c = Char.ofNat 12 := by rw [← h6, Char.ofNat_toNat]
    subst this
    exact readString_escape (e := ['f']) rfl
  · have : c = Char.ofNat 8 := by rw [← h7, Char.ofNat_toNat]
    subst this
    exact readString_escape (e := ['b']) rfl
  · rw [List.singleton_append, readString, if_neg h1, if_neg h2, if_neg (by omega)]
  · exact readString_unitChars (readUnicode_single h9 cs)
  · have hc := toNat_lt c
    rw [List.append_assoc]
    refine readString_unitChars ?_
    rw [readUnicode_pair (by omega) (by omega) (by omega) (by omega)]
    rw [show 0x10000 + (0xd800 + (c.toNat - 65536) / 1024 - 0xd800) * 1024 +
      (0xdc00 + (c.toNat - 65536) % 1024 - 0xdc00) = c.toNat by omega, Char.ofNat_toNat]

theorem readString_flatMap (hn : cs.length < n) :
    readString n (cs.flatMap escapeChar ++ '"' :: rest) = some (cs, rest) := by
  induction cs generalizing n with
  | nil =>
    obtain ⟨n, rfl⟩ : ∃ k, n = k + 1 := ⟨n - 1, by simp at hn; omega⟩
    rfl
  | cons c cs ih =>
    obtain ⟨n, rfl⟩ : ∃ k, n = k + 1 := ⟨n - 1, by simp at hn; omega⟩
    rw [List.flatMap_cons, List.append_assoc, readString_escapeChar,
      ih (by simp at hn; omega)]
    rfl

theorem length_escapeChar_pos (c : Char) : 1 ≤ (escapeChar c).length := by
  unfold escapeChar unitChars
  split_ifs <;> simp

theorem length_flatMap_escapeChar (cs : List Char) :
    cs.length ≤ (cs.flatMap escapeChar).length := by
  induction cs with
  | nil => simp
  | cons c cs ih =>
    have hc := length_escapeChar_pos c
    rw [List.flatMap_cons, List.length_append, List.length_cons]
    omega

theorem readKey_strChars (s : String) (rest : List Char) :
    readKey (strChars s ++ rest) = some (s.toList, rest) := by
  have hlen := length_flatMap_escapeChar s.toList
  simp only [readKey, strChars, List.cons_append, List.append_assoc, List.nil_append, expect,
    if_true]
  refine readString_flatMap ?_
  rw [List.length_append]
  omega

theorem keyLt_irrefl (cs : List Char) : keyLt cs cs = false := by
  induction cs with
  | nil => rfl
  | cons c cs ih => simp [keyLt, ih]

theorem keyLt_asymm (h : keyLt cs ds = true) : keyLt ds cs = false := by
  induction cs generalizing ds with
  | nil => cases ds <;> simp [keyLt] at h ⊢
  | cons c cs ih =>
    cases ds with
    | nil => simp [keyLt] at h
    | cons d ds =>
      simp only [keyLt, Bool.or_eq_true, decide_eq_true_eq, Bool.and_eq_true, beq_iff_eq] at h
      simp only [keyLt, Bool.or_eq_false_iff, decide_eq_false_iff_not, Bool.and_eq_false_iff,
        beq_eq_false_iff_ne]
      rcases h with h | ⟨rfl, h⟩
      · refine ⟨by omega, .inl ?_⟩
        rintro rfl
        omega
      · exact ⟨by omega, .inr (ih h)⟩

theorem keyLt_trans (h : keyLt cs ds = true) (h' : keyLt ds es = true) :
    keyLt cs es = true := by
  induction cs generalizing ds es with
  | nil => cases ds <;> cases es <;> simp [keyLt] at h h' ⊢
  | cons c cs ih =>
    cases ds with
    | nil => simp [keyLt] at h
    | cons d ds =>
      cases es with
      | nil => simp [keyLt] at h'
      | cons e es =>
        simp only [keyLt, Bool.or_eq_true, decide_eq_true_eq, Bool.and_eq_true,
          beq_iff_eq] at h h' ⊢
        rcases h with h | ⟨rfl, h⟩
        · rcases h' with h' | ⟨rfl, -⟩
          · exact .inl (by omega)
          · exact .inl h
        · rcases h' with h' | ⟨rfl, h'⟩
          · exact .inl h'
          · exact .inr ⟨rfl, ih h h'⟩

theorem keyLt_of_not (h : keyLt cs ds = false) (hne : cs ≠ ds) :
    keyLt ds cs = true := by
  induction cs generalizing ds with
  | nil => cases ds <;> simp [keyLt] at h hne ⊢
  | cons c cs ih =>
    cases ds with
    | nil => rfl
    | cons d ds =>
      simp only [keyLt, Bool.or_eq_false_iff, decide_eq_false_iff_not, Bool.and_eq_false_iff,
        beq_eq_false_iff_ne] at h
      simp only [keyLt, Bool.or_eq_true, decide_eq_true_eq, Bool.and_eq_true, beq_iff_eq]
      by_cases hcd : c = d
      · subst hcd
        refine .inr ⟨rfl, ih ?_ ?_⟩
        · exact h.2.resolve_left (by simp)
        · rintro rfl
          exact hne rfl
      · have hnat : c.toNat ≠ d.toNat := fun hn => hcd (Char.toNat_inj.mp hn)
        exact .inl (by omega)

theorem keyLt_total (cs ds : List Char) : keyLt ds cs = false ∨ keyLt cs ds = false := by
  cases h : keyLt ds cs with
  | false => exact .inl rfl
  | true => exact .inr (keyLt_asymm h)

theorem not_keyLt_trans (h : keyLt ds cs = false)
    (h' : keyLt es ds = false) : keyLt es cs = false := by
  by_contra hlt
  rw [Bool.not_eq_false] at hlt
  by_cases heq : es = ds
  · rw [heq, h] at hlt
    cases hlt
  · rw [keyLt_trans (keyLt_of_not h' heq) hlt] at h
    cases h

end Json

namespace JsonMembers

def keys : JsonMembers → List String
  | nil => []
  | cons k _ ms => k :: ms.keys

def append : JsonMembers → JsonMembers → JsonMembers
  | nil, ns => ns
  | cons k v ms, ns => cons k v (ms.append ns)

theorem append_cons : ∀ (ms : JsonMembers) (k : String) (v : Json) (ns : JsonMembers),
    (ms.append (cons k v nil)).append ns = ms.append (cons k v ns)
  | nil, _, _, _ => rfl
  | cons a b ms, k, v, ns => by simp only [append, append_cons ms]

theorem mem_keys_append {key : String} : ∀ {ms ns : JsonMembers},
    key ∈ (ms.append ns).keys ↔ key ∈ ms.keys ∨ key ∈ ns.keys
  | nil, _ => by simp [append, keys]
  | cons a b ms, ns => by simp [append, keys, @mem_keys_append key ms ns, or_assoc]

theorem above_iff {key : String} : ∀ {ms : JsonMembers},
    ms.Above key ↔ ∀ k ∈ ms.keys, keyLt key.toList k.toList = true
  | nil => by simp [Above, keys]
  | cons k v ms => by simp [Above, keys, @above_iff key ms]

theorem insert_last {key : String} {value : Json} : ∀ {ms : JsonMembers},
    (∀ k ∈ ms.keys, keyLt k.toList key.toList = true) →
      ms.insert key value = ms.append (cons key value nil)
  | nil, _ => rfl
  | cons k v ms, h => by
      have hk := h k (by simp [keys])
      have hne : key ≠ k := by
        rintro rfl
        rw [Json.keyLt_irrefl] at hk
        cases hk
      have hrest := @insert_last key value ms fun j hj => h j (by simp [keys, hj])
      rw [insert, if_neg hne, if_neg (by simp [Json.keyLt_asymm hk]), hrest, append]

end JsonMembers

mutual

/-- Values the canonical text can be read back from. -/
def Json.Canonical : Json → Prop
  | .int n => (Nat.toDigits 10 n.natAbs).length ≤ Json.maxIntDigits
  | .float _ => False
  | .array xs => xs.Canonical
  | .object ms => ms.Canonical
  | _ => True

def JsonItems.Canonical : JsonItems → Prop
  | .nil => True
  | .cons x xs => x.Canonical ∧ xs.Canonical

def JsonMembers.Canonical : JsonMembers → Prop
  | .nil => True
  | .cons k v ms => ms.Above k ∧ v.Canonical ∧ ms.Canonical

end

namespace JsonMembers

variable {key k : String} {ms : JsonMembers} {value : Json}

theorem Above.trans (h : keyLt key.toList k.toList = true) (hk : ms.Above k) : ms.Above key :=
  above_iff.mpr fun j hj => Json.keyLt_trans h (above_iff.mp hk j hj)

theorem Above.insert (h : keyLt key.toList k.toList = true) (hms : ms.Above key) :
    (ms.insert k value).Above key := by
  induction ms using JsonMembers.insert.induct k with
  | case1 => exact ⟨h, trivial⟩
  | case2 v ms =>
    rw [JsonMembers.insert, if_pos rfl]
    exact ⟨h, hms.2⟩
  | case3 j v ms hne hlt =>
    rw [JsonMembers.insert, if_neg hne, if_pos hlt]
    exact ⟨h, hms⟩
  | case4 j v ms hne hlt ih =>
    rw [JsonMembers.insert, if_neg hne, if_neg hlt]
    exact ⟨hms.1, ih hms.2⟩

/-- Inserting keeps a condition on the order of the keys and on every value. -/
theorem insert_ordered {C : JsonMembers → Prop} {Q : Json → Prop} (hnil : C .nil)
    (hcons : ∀ k v ms, C (.cons k v ms) ↔ ms.Above k ∧ Q v ∧ C ms) (hms : C ms) (hv : Q value) : C
    (ms.insert k value) := by
  induction ms using JsonMembers.insert.induct k with
  | case1 => exact (hcons _ _ _).mpr ⟨trivial, hv, hnil⟩
  | case2 v ms =>
    obtain ⟨habove, -, hms⟩ := (hcons _ _ _).mp hms
    rw [JsonMembers.insert, if_pos rfl]
    exact (hcons _ _ _).mpr ⟨habove, hv, hms⟩
  | case3 j v ms hne hlt =>
    rw [JsonMembers.insert, if_neg hne, if_pos hlt]
    exact (hcons _ _ _).mpr ⟨⟨hlt, ((hcons _ _ _).mp hms).1.trans hlt⟩, hv, hms⟩
  | case4 j v ms hne hlt ih =>
    obtain ⟨habove, hvalue, hms⟩ := (hcons _ _ _).mp hms
    rw [JsonMembers.insert, if_neg hne, if_neg hlt]
    refine (hcons _ _ _).mpr ⟨Above.insert ?_ habove, hvalue, ih hms⟩
    refine Json.keyLt_of_not (by simpa using hlt) fun h => hne ?_
    exact String.toList_inj.mp h

theorem Canonical.insert (hms : ms.Canonical)
    (hv : value.Canonical) : (ms.insert k value).Canonical :=
  insert_ordered (C := Canonical) trivial (fun _ _ _ => Iff.rfl) hms hv

end JsonMembers

namespace Json

theorem canonical_dict {entries : List (String × Json)} (h : ∀ e ∈ entries, e.2.Canonical) :
    (dict entries).Canonical := by
  suffices hs : ∀ ms : JsonMembers, ms.Canonical →
      (entries.foldl (fun ms e => ms.insert e.1 e.2) ms).Canonical from hs .nil trivial
  induction entries with
  | nil => exact fun ms hms => hms
  | cons e entries ih =>
    intro ms hms
    exact ih (fun e he => h e (by simp [he])) _ (hms.insert (h e (by simp)))

theorem canonical_list {items : List Json} (h : ∀ v ∈ items, v.Canonical) :
    (list items).Canonical := by
  change (JsonItems.ofList items).Canonical
  induction items with
  | nil => exact trivial
  | cons v items ih => exact ⟨h v (by simp), ih fun w hw => h w (by simp [hw])⟩

end Json

namespace Json

variable {c : Char} {cs : List Char} {n : ℕ}

theorem skipBlanks_cons (h : isBlank c = false) :
    skipBlanks (c :: cs) = c :: cs := by
  simp [skipBlanks, h]

theorem isBlank_of_isDigit (h : c.isDigit) : isBlank c = false := by
  by_contra hb
  simp only [isBlank, Bool.not_eq_false, Bool.or_eq_true, beq_iff_eq] at hb
  rcases hb with ((rfl | rfl) | rfl) | rfl <;> revert h <;> decide

def StartsValue (c : Char) : Prop := isBlank c = false ∧ c ≠ ']'

theorem startsValue_of_isDigit (h : c.isDigit) : StartsValue c := by
  refine ⟨isBlank_of_isDigit h, ?_⟩
  rintro rfl
  revert h
  decide

theorem expect_self (c : Char) (rest : List Char) : expect c (c :: rest) = some rest := by
  rw [expect, if_pos rfl]

theorem expect_ne {d : Char} (h : d ≠ c) (rest : List Char) : expect c (d :: rest) = none := by
  rw [expect, if_neg h]

theorem readValue_scalar (h1 : c ≠ '"') (h2 : c ≠ '{')
    (h3 : c ≠ '[') : readValue (n + 1) (c :: cs) = readScalar (c :: cs) := by
  rw [readValue, if_neg h1, if_neg h2, if_neg h3]

theorem readValue_int {m : ℤ} {rest : List Char} (hr : Delimited rest)
    (hm : (Nat.toDigits 10 m.natAbs).length ≤ maxIntDigits) :
    readValue (n + 1) (intChars m ++ rest) = some (.int m, rest) := by
  rw [← readScalar_int hr hm]
  have hne : Nat.toDigits 10 m.natAbs ≠ [] := Nat.toDigits_ne_nil
  obtain ⟨d, ds, hd⟩ := List.exists_cons_of_ne_nil hne
  have hdig : d.isDigit := isDigit_of_mem (n := m.natAbs) (by rw [hd]; simp)
  have hchar : ∀ c ∈ ['"', '{', '['], d ≠ c := by
    rintro c hc rfl
    revert hdig
    fin_cases hc <;> decide
  unfold intChars
  split_ifs
  · exact readValue_scalar (by decide) (by decide) (by decide)
  · rw [hd]
    exact readValue_scalar (hchar _ (by simp)) (hchar _ (by simp)) (hchar _ (by simp))

/-- A floating-point literal that the reader takes as it is. -/
structure ReadsAsFloat (literal : String) : Prop where
  head : ∃ c cs, literal.toList = c :: cs ∧ StartsValue c ∧ c ≠ '"' ∧ c ≠ '{' ∧ c ≠ '['
  read : ∀ rest, Delimited rest →
    readScalar (literal.toList ++ rest) = some (.float literal, rest)

end Json

mutual

/-- Values that can be read back: keys in order, and numbers that the reader takes. -/
def Json.Readable : Json → Prop
  | .int n => (Nat.toDigits 10 n.natAbs).length ≤ Json.maxIntDigits
  | .float literal => Json.ReadsAsFloat literal
  | .array xs => xs.Readable
  | .object ms => ms.Readable
  | _ => True

def JsonItems.Readable : JsonItems → Prop
  | .nil => True
  | .cons x xs => x.Readable ∧ xs.Readable

def JsonMembers.Readable : JsonMembers → Prop
  | .nil => True
  | .cons k v ms => ms.Above k ∧ v.Readable ∧ ms.Readable

end

mutual

theorem Json.Canonical.readable : ∀ {v : Json}, v.Canonical → v.Readable
  | .null, _ => trivial
  | .bool _, _ => trivial
  | .int _, h => h
  | .float _, h => h.elim
  | .str _, _ => trivial
  | .array _, h => JsonItems.Canonical.readable h
  | .object _, h => JsonMembers.Canonical.readable h

theorem JsonItems.Canonical.readable : ∀ {xs : JsonItems}, xs.Canonical → xs.Readable
  | .nil, _ => trivial
  | .cons _ _, h => ⟨Json.Canonical.readable h.1, JsonItems.Canonical.readable h.2⟩

theorem JsonMembers.Canonical.readable : ∀ {ms : JsonMembers}, ms.Canonical → ms.Readable
  | .nil, _ => trivial
  | .cons _ _ _, h =>
      ⟨h.1, Json.Canonical.readable h.2.1, JsonMembers.Canonical.readable h.2.2⟩

end

namespace Json

/-! ## Writing

Texts differ in how they write strings only. -/

/-- A way to write strings that the reader undoes. -/
structure Quoting where
  quote : String → List Char
  opened : ∀ s, ∃ cs, quote s = '"' :: cs
  readKey_quote : ∀ s rest, readKey (quote s ++ rest) = some (s.toList, rest)

variable (q : Quoting)

mutual

def textWith : Json → List Char
  | .null => ['n', 'u', 'l', 'l']
  | .bool true => ['t', 'r', 'u', 'e']
  | .bool false => ['f', 'a', 'l', 's', 'e']
  | .int n => intChars n
  | .float literal => literal.toList
  | .str s => q.quote s
  | .array .nil => ['[', ']']
  | .array (.cons x xs) => '[' :: (textWith x ++ (itemsTextWith xs ++ [']']))
  | .object .nil => ['{', '}']
  | .object (.cons k v ms) =>
      '{' :: (q.quote k ++ (':' :: (textWith v ++ (membersTextWith ms ++ ['}']))))

def itemsTextWith : JsonItems → List Char
  | .nil => []
  | .cons x xs => ',' :: (textWith x ++ itemsTextWith xs)

def membersTextWith : JsonMembers → List Char
  | .nil => []
  | .cons k v ms => ',' :: (q.quote k ++ (':' :: (textWith v ++ membersTextWith ms)))

end

def itemsBody : JsonItems → List Char
  | .nil => []
  | .cons x xs => textWith q x ++ itemsTextWith q xs

/-- The members without the braces. -/
def membersBody : JsonMembers → List Char
  | .nil => []
  | .cons k v ms => q.quote k ++ (':' :: (textWith q v ++ membersTextWith q ms))

variable {q}

variable {v : Json}

theorem text_head (hv : v.Readable) :
    ∃ c cs, textWith q v = c :: cs ∧ StartsValue c := by
  cases v with
  | null => exact ⟨_, _, rfl, rfl, by decide⟩
  | bool b => cases b <;> exact ⟨_, _, rfl, rfl, by decide⟩
  | int n =>
    rw [textWith, intChars]
    split_ifs
    · exact ⟨_, _, rfl, rfl, by decide⟩
    · have hne : Nat.toDigits 10 n.natAbs ≠ [] := Nat.toDigits_ne_nil
      obtain ⟨d, ds, hd⟩ := List.exists_cons_of_ne_nil hne
      exact ⟨d, ds, hd, startsValue_of_isDigit (isDigit_of_mem (n := n.natAbs) (by rw [hd]; simp))⟩
  | float l =>
    obtain ⟨c, cs, h, hc, -⟩ := hv.head
    exact ⟨c, cs, h, hc⟩
  | str s =>
    obtain ⟨cs, h⟩ := q.opened s
    exact ⟨'"', cs, h, rfl, by decide⟩
  | array xs => cases xs <;> exact ⟨_, _, rfl, rfl, by decide⟩
  | object ms => cases ms <;> exact ⟨_, _, rfl, rfl, by decide⟩

theorem skipBlanks_text (hv : v.Readable) (rest : List Char) :
    skipBlanks (textWith q v ++ rest) = textWith q v ++ rest := by
  obtain ⟨c, cs, h, hc, -⟩ := text_head (q := q) hv
  rw [h, List.cons_append, skipBlanks_cons hc]

theorem expect_text (hv : v.Readable) (rest : List Char) :
    expect ']' (textWith q v ++ rest) = none := by
  obtain ⟨c, cs, h, -, hc⟩ := text_head (q := q) hv
  rw [h, List.cons_append, expect_ne hc]

namespace Quoting

theorem skipBlanks_quote (s : String) (rest : List Char) :
    skipBlanks (q.quote s ++ rest) = q.quote s ++ rest := by
  obtain ⟨cs, h⟩ := q.opened s
  rw [h, List.cons_append, skipBlanks_cons (by decide)]

theorem expect_quote (s : String) (rest : List Char) : expect '}' (q.quote s ++ rest) = none := by
  obtain ⟨cs, h⟩ := q.opened s
  rw [h, List.cons_append, expect_ne (by decide)]

theorem readValue_quote (n : ℕ) (s : String) (rest : List Char) :
    readValue (n + 1) (q.quote s ++ rest) = some (.str s, rest) := by
  obtain ⟨cs, hcs⟩ := q.opened s
  have h := q.readKey_quote s rest
  rw [hcs, List.cons_append, readKey, expect_self] at h
  change readString ((cs ++ rest).length + 1) (cs ++ rest) = _ at h
  rw [hcs, List.cons_append, readValue, if_pos rfl, h]
  simp

end Quoting

theorem delimited_itemsText (xs : JsonItems) (rest : List Char) :
    Delimited (itemsTextWith q xs ++ ']' :: rest) := by
  cases xs with
  | nil => exact .inr ⟨_, _, rfl, by simp⟩
  | cons x xs => exact .inr ⟨_, _, rfl, by simp⟩

theorem delimited_membersText (ms : JsonMembers) (rest : List Char) :
    Delimited (membersTextWith q ms ++ '}' :: rest) := by
  cases ms with
  | nil => exact .inr ⟨_, _, rfl, by simp⟩
  | cons k v ms => exact .inr ⟨_, _, rfl, by simp⟩

theorem length_textWith_pos (hv : v.Readable) : 0 < (textWith q v).length := by
  obtain ⟨c, cs, h, -⟩ := text_head (q := q) hv
  rw [h]
  exact Nat.succ_pos _

def isContainer : Json → Bool
  | .array _ => true
  | .object _ => true
  | _ => false

mutual

theorem readValue_text : ∀ (v : Json), v.Readable → ∀ {n : ℕ} {r : List Char},
    (textWith q v).length ≤ n → (v.isContainer = false → Delimited r) →
      readValue n (textWith q v ++ r) = some (v, r)
  | .null, hv, n, r, hn, _ => by
      obtain ⟨n, rfl⟩ : ∃ k, n = k + 1 := ⟨n - 1, by simp [textWith] at hn; omega⟩
      rfl
  | .bool true, _, n, r, hn, _ => by
      obtain ⟨n, rfl⟩ : ∃ k, n = k + 1 := ⟨n - 1, by simp [textWith] at hn; omega⟩
      rfl
  | .bool false, _, n, r, hn, _ => by
      obtain ⟨n, rfl⟩ : ∃ k, n = k + 1 := ⟨n - 1, by simp [textWith] at hn; omega⟩
      rfl
  | .int m, hv, n, r, hn, hr => by
      have hpos := length_textWith_pos (q := q) (v := .int m) hv
      obtain ⟨n, rfl⟩ : ∃ k, n = k + 1 := ⟨n - 1, by omega⟩
      exact readValue_int (hr rfl) hv
  | .float l, hv, n, r, hn, hr => by
      have hpos := length_textWith_pos (q := q) (v := .float l) hv
      obtain ⟨n, rfl⟩ : ∃ k, n = k + 1 := ⟨n - 1, by omega⟩
      obtain ⟨c, cs, hcs, -, h1, h2, h3⟩ := hv.head
      have hread := hv.read r (hr rfl)
      rw [hcs, List.cons_append] at hread
      rw [textWith, hcs, List.cons_append, readValue_scalar h1 h2 h3, hread]
  | .str s, hv, n, r, hn, _ => by
      have hpos := length_textWith_pos (q := q) (v := .str s) hv
      obtain ⟨n, rfl⟩ : ∃ k, n = k + 1 := ⟨n - 1, by omega⟩
      exact q.readValue_quote n s r
  | .array .nil, _, n, r, hn, _ => by
      obtain ⟨n, rfl⟩ : ∃ k, n = k + 1 := ⟨n - 1, by simp [textWith] at hn; omega⟩
      rfl
  | .array (.cons x xs), hv, n, r, hn, _ => by
      obtain ⟨n, rfl⟩ : ∃ k, n = k + 1 := ⟨n - 1, by simp [textWith] at hn; omega⟩
      have hread := readItems_text (.cons x xs) hv (n := n) (r := r)
        (by simp [textWith, itemsBody] at hn ⊢; omega) nofun
      have htext : textWith q (.array (.cons x xs)) ++ r =
          '[' :: (textWith q x ++ (itemsTextWith q xs ++ ']' :: r)) := by
        simp [textWith]
      rw [itemsBody, List.append_assoc] at hread
      rw [htext, readValue, if_neg (by decide), if_neg (by decide), if_pos rfl,
        skipBlanks_text hv.1, expect_text hv.1, hread]
      rfl
  | .object .nil, _, n, r, hn, _ => by
      obtain ⟨n, rfl⟩ : ∃ k, n = k + 1 := ⟨n - 1, by simp [textWith] at hn; omega⟩
      rfl
  | .object (.cons k v ms), hv, n, r, hn, _ => by
      obtain ⟨n, rfl⟩ : ∃ k, n = k + 1 := ⟨n - 1, by simp [textWith] at hn; omega⟩
      have hread := readMembers_text (.cons k v ms) hv (n := n) (m := .nil) (r := r)
        (by simp [textWith, membersBody] at hn ⊢; omega) nofun (by simp [JsonMembers.keys])
      have htext : textWith q (.object (.cons k v ms)) ++ r =
          '{' :: (q.quote k ++ (':' :: (textWith q v ++ (membersTextWith q ms ++ '}' :: r)))) := by
        simp [textWith]
      have hbody : membersBody q (.cons k v ms) ++ '}' :: r =
          q.quote k ++ (':' :: (textWith q v ++ (membersTextWith q ms ++ '}' :: r))) := by
        simp [membersBody]
      rw [hbody] at hread
      rw [htext, readValue, if_neg (by decide), if_pos rfl, Quoting.skipBlanks_quote,
        Quoting.expect_quote, hread]
      rfl

theorem readItems_text : ∀ (xs : JsonItems), xs.Readable → ∀ {n : ℕ} {r : List Char},
    (itemsBody q xs).length < n → xs ≠ .nil →
      readItems n (itemsBody q xs ++ ']' :: r) = some (xs, r)
  | .nil, _, _, _, _, h => (h rfl).elim
  | .cons x xs, hv, n, r, hn, _ => by
      obtain ⟨n, rfl⟩ : ∃ k, n = k + 1 := ⟨n - 1, by omega⟩
      have hlen : (textWith q x).length + (itemsTextWith q xs).length < n + 1 := by
        simpa [itemsBody] using hn
      have hx := readValue_text x hv.1 (n := n) (by omega) fun _ => delimited_itemsText (q := q) xs r
      rw [itemsBody, List.append_assoc, readItems, hx]
      cases xs with
      | nil =>
        simp only [itemsTextWith, List.nil_append, skipBlanks_cons (c := ']') rfl, expect_self]
      | cons y ys =>
        have hbody : itemsTextWith q (.cons y ys) ++ ']' :: r =
            ',' :: (itemsBody q (.cons y ys) ++ ']' :: r) := by
          simp [itemsTextWith, itemsBody]
        have hskip : skipBlanks (itemsBody q (.cons y ys) ++ ']' :: r) =
            itemsBody q (.cons y ys) ++ ']' :: r := by
          rw [itemsBody, List.append_assoc, skipBlanks_text hv.2.1]
        have hys := readItems_text (.cons y ys) hv.2 (n := n) (r := r)
          (by simp [itemsTextWith, itemsBody] at hlen ⊢; omega) nofun
        rw [hbody]
        simp only [skipBlanks_cons (c := ',') rfl, expect_ne (c := ']') (d := ',') (by decide),
          expect_self, hskip, hys, Option.map_some]

theorem readMembers_text : ∀ (ms : JsonMembers), ms.Readable → ∀ {n : ℕ} {m : JsonMembers}
    {r : List Char}, (membersBody q ms).length < n → ms ≠ .nil →
    (∀ a ∈ m.keys, ∀ k ∈ ms.keys, keyLt a.toList k.toList = true) →
      readMembers n m (membersBody q ms ++ '}' :: r) = some (m.append ms, r)
  | .nil, _, _, _, _, _, h, _ => (h rfl).elim
  | .cons k v ms, hv, n, m, r, hn, _, hacc => by
      obtain ⟨n, rfl⟩ : ∃ k, n = k + 1 := ⟨n - 1, by omega⟩
      have hlen : (q.quote k).length + ((textWith q v).length + (membersTextWith q ms).length + 1) <
          n + 1 := by
        simpa [membersBody] using hn
      have hv' := readValue_text v hv.2.1 (n := n) (by omega) fun _ =>
        delimited_membersText (q := q) ms r
      have hinsert : m.insert (String.ofList k.toList) v = m.append (.cons k v .nil) := by
        rw [String.ofList_toList]
        exact JsonMembers.insert_last fun a ha => hacc a ha k (by simp [JsonMembers.keys])
      rw [membersBody, List.append_assoc, readMembers, q.readKey_quote]
      simp only [List.cons_append, List.append_assoc, skipBlanks_cons (c := ':') rfl, expect_self,
        skipBlanks_text hv.2.1, hv', hinsert]
      cases ms with
      | nil =>
        simp only [membersTextWith, List.nil_append, skipBlanks_cons (c := '}') rfl, expect_self]
      | cons j w ms =>
        have hbody : membersTextWith q (.cons j w ms) ++ '}' :: r =
            ',' :: (membersBody q (.cons j w ms) ++ '}' :: r) := by
          simp [membersTextWith, membersBody]
        have hskip : skipBlanks (membersBody q (.cons j w ms) ++ '}' :: r) =
            membersBody q (.cons j w ms) ++ '}' :: r := by
          rw [membersBody, List.append_assoc, Quoting.skipBlanks_quote]
        have hms := readMembers_text (.cons j w ms) hv.2.2 (n := n)
          (m := m.append (.cons k v .nil)) (r := r)
          (by simp [membersTextWith, membersBody] at hlen ⊢; omega) nofun (by
            intro a ha i hi
            rw [JsonMembers.mem_keys_append] at ha
            rcases ha with ha | ha
            · exact hacc a ha i (by simp [JsonMembers.keys] at hi ⊢; tauto)
            · simp only [JsonMembers.keys, List.mem_singleton] at ha
              subst ha
              exact JsonMembers.above_iff.mp hv.1 i hi)
        rw [hbody]
        simp only [skipBlanks_cons (c := ',') rfl, expect_ne (c := '}') (d := ',') (by decide),
          expect_self, hskip, hms, JsonMembers.append_cons]

end

theorem loads_textWith (hv : v.Readable) {blanks : List Char}
    (hblanks : skipBlanks blanks = []) (hend : v.isContainer = false → Delimited blanks) :
    loads (String.ofList (textWith q v ++ blanks)) = some v := by
  unfold loads
  rw [String.toList_ofList, skipBlanks_text hv,
    readValue_text v hv (by rw [List.length_append]; omega) hend]
  dsimp only
  rw [if_pos hblanks]

def asciiQuoting : Quoting := ⟨strChars, fun _ => ⟨_, rfl⟩, readKey_strChars⟩

mutual

theorem textWith_ascii : ∀ v : Json, textWith asciiQuoting v = v.text
  | .null => rfl
  | .bool true => rfl
  | .bool false => rfl
  | .int _ => rfl
  | .float _ => rfl
  | .str _ => rfl
  | .array .nil => rfl
  | .array (.cons x xs) => by rw [textWith, text, textWith_ascii x, itemsTextWith_ascii xs]
  | .object .nil => rfl
  | .object (.cons k v ms) => by
      rw [textWith, text, textWith_ascii v, membersTextWith_ascii ms]
      rfl

theorem itemsTextWith_ascii : ∀ xs : JsonItems, itemsTextWith asciiQuoting xs = itemsText xs
  | .nil => rfl
  | .cons x xs => by rw [itemsTextWith, itemsText, textWith_ascii x, itemsTextWith_ascii xs]

theorem membersTextWith_ascii : ∀ ms : JsonMembers,
    membersTextWith asciiQuoting ms = membersText ms
  | .nil => rfl
  | .cons k v ms => by
      rw [membersTextWith, membersText, textWith_ascii v, membersTextWith_ascii ms]
      rfl

end

theorem loads_dumps (hv : v.Canonical) : loads (dumps v) = some v := by
  have hblanks : skipBlanks [] = [] := rfl
  have h := loads_textWith (q := asciiQuoting) hv.readable hblanks fun _ => .inl rfl
  rwa [List.append_nil, textWith_ascii] at h

theorem dumps_injective {w : Json} (hv : v.Canonical) (hw : w.Canonical)
    (h : dumps v = dumps w) : v = w := by
  have := loads_dumps hv
  rw [h, loads_dumps hw] at this
  exact (Option.some.inj this).symm

end Json
