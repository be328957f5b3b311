import TradingLab.Json.Members

/-!
# Reading back the unescaped text

A value in memory that has a text is read back from it. The shortest literal of a
floating-point number is one that the reader takes as it is, and the text of a
document has its line feed at the end and nowhere else.
-/

namespace Json

open List

theorem readString_escapePlain (n : ℕ) (c : Char) (cs : List Char) :
    readString (n + 1) (escapePlain c ++ cs) =
      (readString n cs).map fun r => (c :: r.1, r.2) := by
  unfold escapePlain
  split
  · exact readString_escapeChar n c cs
  · rename_i h
    have h1 : c ≠ '"' := by
      rintro rfl
      exact h (by decide)
    have h2 : c ≠ '\\' := by
      rintro rfl
      exact h (by decide)
    rw [singleton_append, readString, if_neg h1, if_neg h2, if_neg (by omega)]

variable {cs rest : List Char}

theorem readString_flatMap_plain {n : ℕ} (hn : cs.length < n) :
    readString n (cs.flatMap escapePlain ++ '"' :: rest) = some (cs, rest) := by
  induction cs generalizing n with
  | nil =>
    obtain ⟨n, rfl⟩ : ∃ k, n = k + 1 := ⟨n - 1, by simp at hn; omega⟩
    rfl
  | cons c cs ih =>
    obtain ⟨n, rfl⟩ : ∃ k, n = k + 1 := ⟨n - 1, by simp at hn; omega⟩
    rw [flatMap_cons, append_assoc, readString_escapePlain,
      ih (by simp at hn; omega)]
    rfl

theorem length_flatMap_escapePlain (cs : List Char) :
    cs.length ≤ (cs.flatMap escapePlain).length := by
  induction cs with
  | nil => simp
  | cons c cs ih =>
    have hc : 1 ≤ (escapePlain c).length := by
      unfold escapePlain
      split
      · exact length_escapeChar_pos c
      · exact Nat.le_refl 1
    rw [flatMap_cons, length_append, length_cons]
    omega

theorem readKey_plainStrChars (s : String) (rest : List Char) :
    readKey (plainStrChars s ++ rest) = some (s.toList, rest) := by
  have hlen := length_flatMap_escapePlain s.toList
  simp only [readKey, plainStrChars, cons_append, append_assoc, nil_append, expect,
    if_true]
  apply readString_flatMap_plain
  rw [length_append]
  omega

def plainQuoting : Quoting := ⟨plainStrChars, fun _ => ⟨_, rfl⟩, readKey_plainStrChars⟩

mutual

theorem textWith_plain : ∀ v : Json, textWith plainQuoting v = v.plainText
  | .null => rfl
  | .bool true => rfl
  | .bool false => rfl
  | .int _ => rfl
  | .float _ => rfl
  | .str _ => rfl
  | .array .nil => rfl
  | .array (.cons x xs) => by
      rw [textWith, plainText, textWith_plain x, itemsTextWith_plain xs]
  | .object .nil => rfl
  | .object (.cons k v ms) => by
      rw [textWith, plainText, textWith_plain v, membersTextWith_plain ms]
      rfl

theorem itemsTextWith_plain : ∀ xs : JsonItems, itemsTextWith plainQuoting xs = plainItemsText xs
  | .nil => rfl
  | .cons x xs => by
      rw [itemsTextWith, plainItemsText, textWith_plain x, itemsTextWith_plain xs]

theorem membersTextWith_plain : ∀ ms : JsonMembers,
    membersTextWith plainQuoting ms = plainMembersText ms
  | .nil => rfl
  | .cons k v ms => by
      rw [membersTextWith, plainMembersText, textWith_plain v, membersTextWith_plain ms]
      rfl

end

/-- Digits of an integer part: a zero alone, or no leading zero. -/
structure WholePart (cs : List Char) : Prop where
  nonempty : cs ≠ []
  digits : ∀ c ∈ cs, c.isDigit
  leading : cs.head? = some '0' → cs = ['0']

/-- Nothing, or a point and digits. -/
def FractionPart (cs : List Char) : Prop :=
  cs = [] ∨ ∃ ds, ds ≠ [] ∧ (∀ c ∈ ds, c.isDigit) ∧ cs = '.' :: ds

/-- Nothing, or the letter, a sign and digits. -/
def ExponentPart (cs : List Char) : Prop :=
  cs = [] ∨ ∃ sign ds, (sign = '+' ∨ sign = '-') ∧ ds ≠ [] ∧ (∀ c ∈ ds, c.isDigit) ∧
    cs = 'e' :: sign :: ds

/-- No digit follows. -/
def DigitsEnd (rest : List Char) : Prop := ∀ c ∈ rest.head?, c.isDigit = false

theorem takeDigits_ends {ds : List Char} (hd : ∀ c ∈ ds, c.isDigit) (hr : DigitsEnd rest) :
    takeDigits (ds ++ rest) = (ds, rest) := by
  have hrest : rest.takeWhile Char.isDigit = [] ∧ rest.dropWhile Char.isDigit = rest := by
    cases rest with
    | nil => exact ⟨rfl, rfl⟩
    | cons c cs =>
      have hc : c.isDigit = false := hr c rfl
      simp [hc]
  unfold takeDigits
  rw [takeWhile_append_of_pos hd, dropWhile_append_of_pos hd, hrest.1, hrest.2,
    List.append_nil]

theorem Delimited.digitsEnd (h : Delimited rest) : DigitsEnd rest := by
  rcases h with rfl | ⟨c, cs, rfl, rfl | rfl | rfl⟩
  · nofun
  all_goals
    intro d hd
    cases hd
    rfl

theorem ExponentPart.digitsEnd (h : ExponentPart cs) (hr : Delimited rest) :
    DigitsEnd (cs ++ rest) := by
  rcases h with rfl | ⟨sign, ds, -, -, -, rfl⟩
  · exact hr.digitsEnd
  · intro d hd
    cases hd
    rfl

theorem FractionPart.digitsEnd (h : FractionPart cs) (hr : DigitsEnd rest) :
    DigitsEnd (cs ++ rest) := by
  rcases h with rfl | ⟨ds, -, -, rfl⟩
  · exact hr
  · intro d hd
    cases hd
    rfl

theorem readWhole_append (h : WholePart cs) (hr : DigitsEnd rest) :
    readWhole (cs ++ rest) = some (cs, rest) := by
  unfold readWhole
  rw [head?_append_of_ne_nil _ h.nonempty]
  split
  · rename_i h0
    rw [h.leading h0]
    rfl
  · rw [takeDigits_ends h.digits hr]
    cases cs with
    | nil => exact (h.nonempty rfl).elim
    | cons c cs => rfl

theorem readFraction_append (h : FractionPart cs) (hr : DigitsEnd rest)
    (hpoint : rest.head? ≠ some '.') : readFraction (cs ++ rest) = (cs, rest) := by
  rcases h with rfl | ⟨ds, hne, hds, rfl⟩
  · cases rest with
    | nil => rfl
    | cons c rest =>
      rw [nil_append, readFraction, if_neg]
      rintro rfl
      exact hpoint rfl
  · rw [cons_append, readFraction, if_pos rfl, takeDigits_ends hds hr]
    cases ds with
    | nil => exact (hne rfl).elim
    | cons d ds => rfl

theorem readExponent_append (h : ExponentPart cs) (hr : Delimited rest) :
    readExponent (cs ++ rest) = (cs, rest) := by
  rcases h with rfl | ⟨sign, ds, hsign, hne, hds, rfl⟩
  · exact readExponent_of_delimited hr
  · have hread : readSign (sign :: (ds ++ rest)) = ([sign], ds ++ rest) := by
      rw [readSign, if_pos hsign]
    rw [cons_append, cons_append, readExponent, if_pos (.inl rfl), hread,
      takeDigits_ends hds hr.digitsEnd]
    cases ds with
    | nil => exact (hne rfl).elim
    | cons d ds => rfl

theorem readUnsigned_literal (negative : Bool) {whole fraction exponent : List Char}
    (hwhole : WholePart whole) (hfraction : FractionPart fraction)
    (hexponent : ExponentPart exponent) (hfloat : fraction ≠ [] ∨ exponent ≠ [])
    (hr : Delimited rest) :
    readUnsigned negative (whole ++ (fraction ++ (exponent ++ rest))) =
      some (.float (String.ofList ((if negative then ['-'] else []) ++ whole ++ fraction ++
        exponent)), rest) := by
  have hends := hexponent.digitsEnd hr
  have hpoint : (exponent ++ rest).head? ≠ some '.' := by
    rcases hexponent with rfl | ⟨sign, ds, -, -, -, rfl⟩
    · rcases hr with rfl | ⟨c, cs, rfl, rfl | rfl | rfl⟩ <;> simp
    · rw [cons_append, head?_cons]
      decide
  unfold readUnsigned
  rw [readWhole_append hwhole (hfraction.digitsEnd hends)]
  dsimp only
  rw [readFraction_append hfraction hends hpoint]
  dsimp only
  rw [readExponent_append hexponent hr]
  dsimp only
  rw [if_neg (by tauto)]

/-- A literal with a fraction or an exponent is taken as it is. -/
theorem readsAsFloat (negative : Bool) {whole fraction exponent : List Char}
    (hwhole : WholePart whole) (hfraction : FractionPart fraction)
    (hexponent : ExponentPart exponent) (hfloat : fraction ≠ [] ∨ exponent ≠ []) :
    ReadsAsFloat (String.ofList ((if negative then ['-'] else []) ++ whole ++ fraction ++
      exponent)) := by
  obtain ⟨d, ds, hd⟩ := exists_cons_of_ne_nil hwhole.nonempty
  have hdigit : d.isDigit := hwhole.digits d (by rw [hd]; simp)
  have hchar : ∀ c ∈ ['"', '{', '[', '-'], d ≠ c := by
    rintro c hc rfl
    revert hdigit
    fin_cases hc <;> decide
  constructor
  · rw [String.toList_ofList]
    cases negative with
    | true => exact ⟨'-', _, rfl, ⟨rfl, by decide⟩, by decide, by decide, by decide⟩
    | false =>
      refine ⟨d, ds ++ fraction ++ exponent, ?_, startsValue_of_isDigit hdigit, ?_, ?_, ?_⟩
      · rw [hd]
        rfl
      · exact hchar _ (by simp)
      · exact hchar _ (by simp)
      · exact hchar _ (by simp)
  · intro rest hr
    have hread := readUnsigned_literal negative hwhole hfraction hexponent hfloat hr
    rw [String.toList_ofList]
    unfold readScalar
    cases negative with
    | true =>
      have htext : (if true = true then ['-'] else []) ++ whole ++ fraction ++ exponent ++ rest =
          '-' :: (whole ++ (fraction ++ (exponent ++ rest))) := by simp
      rw [htext, hd, cons_append, (readLiteral_digits hdigit).2, ← cons_append, ← hd]
      exact hread
    | false =>
      have htext : (if false = true then ['-'] else []) ++ whole ++ fraction ++ exponent ++ rest =
          whole ++ (fraction ++ (exponent ++ rest)) := by simp
      rw [htext, hd, cons_append, (readLiteral_digits hdigit).1]
      dsimp only
      rw [readNumber, head?_cons, if_neg (by simpa using hchar '-' (by simp)),
        ← cons_append, ← hd]
      exact hread

namespace Binary64

variable {magnitude : ℚ}

theorem coefficient_ne_zero {d : Decimal} (hm : magnitude ≠ 0)
    (h : ofDecimal d = finite false magnitude) : d.coefficient ≠ 0 := by
  intro h0
  rw [ofDecimal, if_pos (.inl h0)] at h
  injection h with _ hzero
  exact hm hzero.symm

theorem closer_eq (magnitude : ℚ) (a b : Decimal) :
    closer magnitude a b = a ∨ closer magnitude a b = b := by
  unfold closer
  dsimp only
  split
  · exact .inl rfl
  · exact .inr rfl

theorem shortest_eq_zero (hm : magnitude ≠ 0)
    (h : (shortest magnitude).coefficient = 0) : shortest magnitude = 0 := by
  unfold shortest at h ⊢
  dsimp only at h ⊢
  cases hfind : (range 18).findSome? _ with
  | none => rfl
  | some d =>
    rw [hfind] at h
    change d.coefficient = 0 at h
    obtain ⟨n, -, hn⟩ := exists_of_findSome?_eq_some hfind
    exfalso
    split at hn
    · cases hn
    · have hmem : ∀ (ds : List Decimal) (a : Decimal),
          a ∈ ds.filter (fun d => decide (ofDecimal d = finite false magnitude)) →
            a.coefficient ≠ 0 := by
        intro ds a ha
        rw [mem_filter, decide_eq_true_eq] at ha
        exact coefficient_ne_zero hm ha.2
      split at hn
      · cases hn
      · rename_i a hfilter
        cases hn
        exact hmem _ d (by rw [hfilter]; simp) h
      · rename_i a b _ hfilter
        cases hn
        rcases closer_eq magnitude a b with hc | hc
        · exact hmem _ a (by rw [hfilter]; simp) (hc ▸ h)
        · exact hmem _ b (by rw [hfilter]; simp) (hc ▸ h)

theorem isDigit_trim (d : Decimal) : ∀ c ∈ (trim d).1, c.isDigit := by
  intro c hc
  rw [trim, mem_reverse] at hc
  exact isDigit_of_mem (mem_reverse.mp ((dropWhile_sublist _).mem hc))

theorem trim_head {d : Decimal} (h : d.coefficient ≠ 0) :
    ∃ c cs, (trim d).1 = c :: cs ∧ c ≠ '0' := by
  have hne : Nat.toDigits 10 d.coefficient ≠ [] := Nat.toDigits_ne_nil
  obtain ⟨c, cs, hcs⟩ := exists_cons_of_ne_nil hne
  have hc : c ≠ '0' := by
    rintro rfl
    exact h (head_toDigits (by rw [hcs]; rfl))
  rw [trim]
  dsimp only
  rw [hcs, reverse_cons, dropWhile_append]
  split
  · rw [dropWhile_cons_of_neg (by simpa using hc)]
    exact ⟨c, [], rfl, hc⟩
  · rw [reverse_append]
    exact ⟨c, _, rfl, hc⟩

theorem exponentPart_exponentChars (e : ℤ) : ExponentPart ('e' :: exponentChars e) := by
  right
  refine ⟨_, _, ?_, ?_, ?_, rfl⟩
  · split
    · exact .inr rfl
    · exact .inl rfl
  · exact append_ne_nil_of_right_ne_nil _ Nat.toDigits_ne_nil
  · intro c hc
    rcases mem_append.mp hc with hc | hc
    · rw [eq_of_mem_replicate hc]
      rfl
    · exact isDigit_of_mem hc

theorem wholePart_zero : WholePart ['0'] := by
  constructor
  · simp
  · simp [Char.isDigit]
  · intro _
    rfl

theorem fractionPart_zero : FractionPart ['.', '0'] := by
  right
  refine ⟨['0'], ?_, ?_, rfl⟩
  · simp
  · simp [Char.isDigit]

/-- The literal of a positive number has a fraction or an exponent. -/
theorem reprChars_parts (hm : magnitude ≠ 0) :
    ∃ whole fraction exponent, reprChars magnitude = whole ++ fraction ++ exponent ∧
      WholePart whole ∧ FractionPart fraction ∧ ExponentPart exponent ∧
      (fraction ≠ [] ∨ exponent ≠ []) := by
  by_cases hzero : (shortest magnitude).coefficient = 0
  · have hchars : reprChars magnitude = ['0'] ++ ['.', '0'] ++ [] := by
      rw [reprChars, shortest_eq_zero hm hzero]
      rfl
    exact ⟨_, _, _, hchars, wholePart_zero, fractionPart_zero, .inl rfl, .inl (by simp)⟩
  obtain ⟨c, cs, htrim, hc⟩ := trim_head hzero
  have hdigits := isDigit_trim (shortest magnitude)
  have hsplit : trim (shortest magnitude) = (c :: cs, (trim (shortest magnitude)).2) := by
    rw [← htrim]
  rw [htrim] at hdigits
  have hrest : ∀ d ∈ cs, d.isDigit := fun d hd => hdigits d (mem_cons_of_mem _ hd)
  rw [reprChars, hsplit]
  generalize (trim (shortest magnitude)).2 = point
  dsimp only
  split
  · refine ⟨[c], if (c :: cs).length ≤ 1 then [] else '.' :: cs, _, rfl, ?_, ?_,
      exponentPart_exponentChars _, .inr (by simp)⟩
    · refine ⟨by simp, fun d hd => hdigits d ?_, fun h => (hc (by simpa using h)).elim⟩
      rw [List.mem_singleton.mp hd]
      exact mem_cons_self
    · split
      · exact .inl rfl
      · rename_i hlen
        right
        refine ⟨cs, ?_, hrest, rfl⟩
        rintro rfl
        exact hlen (by simp)
  · split
    · refine ⟨['0'], _, [], (List.append_nil _).symm, wholePart_zero, ?_,
        .inl rfl, .inl (by simp)⟩
      right
      refine ⟨_, ?_, ?_, rfl⟩
      · simp
      · intro d hd
        rcases mem_append.mp hd with hd | hd
        · rw [eq_of_mem_replicate hd]
          rfl
        · exact hdigits d hd
    · rename_i hpoint
      have hwhole : ∃ ds, (c :: cs).take point.toNat = c :: ds := by
        obtain ⟨n, hn⟩ : ∃ n, point.toNat = n + 1 := ⟨point.toNat - 1, by omega⟩
        rw [hn]
        exact ⟨_, rfl⟩
      obtain ⟨ds, hds⟩ := hwhole
      refine ⟨_, _, [], (List.append_nil _).symm, ?_, .inr ⟨_, ?_, ?_, rfl⟩, .inl rfl,
        .inl (by simp)⟩
      · refine ⟨by rw [hds]; simp, ?_, fun h => ?_⟩
        · intro d hd
          rcases mem_append.mp hd with hd | hd
          · exact hdigits d (mem_of_mem_take hd)
          · rw [eq_of_mem_replicate hd]
            rfl
        · rw [hds] at h
          exact (hc (by simpa using h)).elim
      · split
        · simp
        · rename_i hne
          simpa using hne
      · intro d hd
        split at hd
        · rw [List.mem_singleton.mp hd]
          rfl
        · exact hdigits d (mem_of_mem_drop hd)

theorem readsAsFloat_repr (negative : Bool) (magnitude : ℚ) :
    ReadsAsFloat (finite negative magnitude).repr := by
  have hparts : ∃ whole fraction exponent,
      (if magnitude = 0 then ['0', '.', '0'] else reprChars magnitude) =
        whole ++ fraction ++ exponent ∧ WholePart whole ∧ FractionPart fraction ∧
        ExponentPart exponent ∧ (fraction ≠ [] ∨ exponent ≠ []) := by
    split
    · exact ⟨['0'], ['.', '0'], [], rfl, wholePart_zero, fractionPart_zero, .inl rfl, .inl (by simp)⟩
    · rename_i hm
      exact reprChars_parts hm
  obtain ⟨whole, fraction, exponent, hchars, hwhole, hfraction, hexponent, hfloat⟩ := hparts
  have h := readsAsFloat negative hwhole hfraction hexponent hfloat
  rw [repr, hchars]
  cases negative with
  | true => exact h
  | false => exact h

end Binary64

end Json

mutual

theorem Json.Held.readable : ∀ {v : Json}, v.Held → v.hasNonFinite = false →
    v.hasLongInteger = false → v.Readable
  | .null, _, _, _ => trivial
  | .bool _, _, _, _ => trivial
  | .int n, _, _, hlong => by
      rw [Json.hasLongInteger, decide_eq_false_iff_not, not_lt] at hlong
      exact hlong
  | .float l, h, hfinite, _ => by
      have heq : (Json.Binary64.ofLiteral l).repr = l := h
      rw [Json.hasNonFinite] at hfinite
      change Json.ReadsAsFloat l
      rw [← heq]
      split at hfinite
      · rename_i negative magnitude hl
        rw [hl]
        exact Json.Binary64.readsAsFloat_repr negative magnitude
      · cases hfinite
  | .str _, _, _, _ => trivial
  | .array _, h, hfinite, hlong => JsonItems.Held.readable h hfinite hlong
  | .object _, h, hfinite, hlong => JsonMembers.Held.readable h hfinite hlong

theorem JsonItems.Held.readable : ∀ {xs : JsonItems}, xs.Held →
    Json.itemsHaveNonFinite xs = false → Json.itemsHaveLongInteger xs = false → xs.Readable
  | .nil, _, _, _ => trivial
  | .cons x xs, h, hfinite, hlong => by
      rw [Json.itemsHaveNonFinite, Bool.or_eq_false_iff] at hfinite
      rw [Json.itemsHaveLongInteger, Bool.or_eq_false_iff] at hlong
      exact ⟨Json.Held.readable h.1 hfinite.1 hlong.1,
        JsonItems.Held.readable h.2 hfinite.2 hlong.2⟩

theorem JsonMembers.Held.readable : ∀ {ms : JsonMembers}, ms.Held →
    Json.membersHaveNonFinite ms = false → Json.membersHaveLongInteger ms = false → ms.Readable
  | .nil, _, _, _ => trivial
  | .cons k v ms, h, hfinite, hlong => by
      rw [Json.membersHaveNonFinite, Bool.or_eq_false_iff] at hfinite
      rw [Json.membersHaveLongInteger, Bool.or_eq_false_iff] at hlong
      exact ⟨h.1, Json.Held.readable h.2.1 hfinite.1 hlong.1,
        JsonMembers.Held.readable h.2.2 hfinite.2 hlong.2⟩

end

namespace Json

theorem loads_canonical {ms : JsonMembers} (h : ms.Held)
    (hfinite : membersHaveNonFinite ms = false) (hlong : membersHaveLongInteger ms = false) :
    loads (String.ofList (Json.object ms).canonical) = some (.object ms) := by
  have hread : (Json.object ms).Readable := JsonMembers.Held.readable h hfinite hlong
  rw [canonical, ← textWith_plain]
  exact loads_textWith hread rfl nofun

theorem loads_plainText {ms : JsonMembers} (h : ms.Held)
    (hfinite : membersHaveNonFinite ms = false) (hlong : membersHaveLongInteger ms = false) :
    loads (String.ofList (Json.object ms).plainText) = some (.object ms) := by
  have hread : (Json.object ms).Readable := JsonMembers.Held.readable h hfinite hlong
  have hblanks : skipBlanks [] = [] := rfl
  have hloads := loads_textWith (q := plainQuoting) hread hblanks nofun
  rwa [List.append_nil, textWith_plain] at hloads

/-- No control character is among the characters. -/
def Printable (cs : List Char) : Prop := ∀ c ∈ cs, 32 ≤ c.toNat

instance (cs : List Char) : Decidable (Printable cs) :=
  List.decidableBAll (fun c : Char => 32 ≤ c.toNat) cs

theorem Printable.append {as bs : List Char} (ha : Printable as) (hb : Printable bs) :
    Printable (as ++ bs) := List.forall_mem_append.mpr ⟨ha, hb⟩

variable {cs : List Char}

theorem Printable.cons {c : Char} (hc : 32 ≤ c.toNat) (hcs : Printable cs) :
    Printable (c :: cs) := List.forall_mem_cons.mpr ⟨hc, hcs⟩

theorem Printable.not_mem {c : Char} (h : Printable cs) (hc : c.toNat < 32) :
    c ∉ cs := fun hmem => absurd (h c hmem) (Nat.not_le.mpr hc)

theorem printable_of_isDigit (h : ∀ c ∈ cs, c.isDigit) : Printable cs := by
  intro c hc
  have hdigit := (Char.isDigit_iff_toNat.mp (h c hc)).1
  exact le_trans (by decide) hdigit

theorem printable_unitChars (n : ℕ) : Printable (unitChars n) := by
  have hhex : ∀ k < 16, 32 ≤ (hexChar k).toNat := by decide
  refine .cons (by decide) (.cons (by decide) (.cons (hhex _ (by omega)) (.cons (hhex _ (by omega))
    (.cons (hhex _ (by omega)) (.cons (hhex _ (by omega)) ?_)))))
  exact fun c hc => absurd hc List.not_mem_nil

theorem printable_escapeChar (c : Char) : Printable (escapeChar c) := by
  unfold escapeChar
  split_ifs
  any_goals decide
  · rename_i hplain
    exact List.forall_mem_singleton.mpr hplain.1
  · exact printable_unitChars _
  · exact (printable_unitChars _).append (printable_unitChars _)

theorem printable_plainStrChars (s : String) : Printable (plainStrChars s) := by
  unfold plainStrChars
  refine .cons (by decide) (.append ?_ (by decide))
  intro c hc
  obtain ⟨d, -, hc⟩ := List.mem_flatMap.mp hc
  unfold escapePlain at hc
  split at hc
  · exact printable_escapeChar d c hc
  · rename_i hlarge
    rw [List.mem_singleton] at hc
    rw [hc]
    omega

theorem printable_intChars (n : ℤ) : Printable (intChars n) := by
  have hdigits : Printable (Nat.toDigits 10 n.natAbs) :=
    printable_of_isDigit fun c hc => isDigit_of_mem hc
  unfold intChars
  split
  · exact .cons (by decide) hdigits
  · exact hdigits

theorem printable_reprChars {magnitude : ℚ} (hm : magnitude ≠ 0) :
    Printable (Binary64.reprChars magnitude) := by
  obtain ⟨whole, fraction, exponent, hchars, hwhole, hfraction, hexponent, -⟩ :=
    Binary64.reprChars_parts hm
  rw [hchars]
  refine .append (.append (printable_of_isDigit hwhole.digits) ?_) ?_
  · rcases hfraction with rfl | ⟨ds, -, hds, rfl⟩
    · exact fun c hc => absurd hc List.not_mem_nil
    · exact .cons (by decide) (printable_of_isDigit hds)
  · rcases hexponent with rfl | ⟨sign, ds, hsign, -, hds, rfl⟩
    · exact fun c hc => absurd hc List.not_mem_nil
    · refine .cons (by decide) (.cons ?_ (printable_of_isDigit hds))
      rcases hsign with rfl | rfl <;> decide

theorem printable_repr (x : Binary64) : Printable x.repr.toList := by
  cases x with
  | nan => decide
  | infinite negative => cases negative <;> decide
  | finite negative magnitude =>
    have hchars : Printable (if magnitude = 0 then ['0', '.', '0'] else
        Binary64.reprChars magnitude) := by
      split
      · decide
      · rename_i hm
        exact printable_reprChars hm
    rw [Binary64.repr, String.toList_ofList]
    cases negative with
    | true => exact .cons (by decide) hchars
    | false => exact hchars

mutual

theorem printable_plainText : ∀ v : Json, Printable v.normal.plainText
  | .null => by decide
  | .bool true => by decide
  | .bool false => by decide
  | .int n => printable_intChars n
  | .float l => printable_repr _
  | .str s => printable_plainStrChars s
  | .array .nil => by decide
  | .array (.cons x xs) =>
      .cons (by decide) (.append (printable_plainText x)
        (.append (printable_plainItemsText xs) (by decide)))
  | .object .nil => by decide
  | .object (.cons k v ms) =>
      .cons (by decide) (.append (printable_plainStrChars k) (.cons (by decide)
        (.append (printable_plainText v) (.append (printable_plainMembersText ms) (by decide)))))

theorem printable_plainItemsText : ∀ xs : JsonItems, Printable (plainItemsText (normalItems xs))
  | .nil => fun _ hc => absurd hc List.not_mem_nil
  | .cons x xs =>
      .cons (by decide) (.append (printable_plainText x) (printable_plainItemsText xs))

theorem printable_plainMembersText : ∀ ms : JsonMembers,
    Printable (plainMembersText (normalMembers ms))
  | .nil => fun _ hc => absurd hc List.not_mem_nil
  | .cons k v ms =>
      .cons (by decide) (.append (printable_plainStrChars k) (.cons (by decide)
        (.append (printable_plainText v) (printable_plainMembersText ms))))

end

theorem newline_not_mem_plainText (v : Json) : '\n' ∉ v.normal.plainText :=
  (printable_plainText v).not_mem (by decide)

end Json
