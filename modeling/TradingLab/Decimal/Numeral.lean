import TradingLab.Decimal.Format

/-!
# Numerals of any form

Outside the plain texts a numeral may have a sign, a point at either end and an
exponent, digits of any script and underscores, and it may stand for an infinity
or for no number at all. Reading a text that is no numeral signals, and so do the
operations that have no result: a sum with a signaling value, of two opposite
infinities, or beyond the greatest exponent of the context.

For texts of plain decimals and for moderate numbers all this agrees with the
finite numbers: the second half says so.
-/

namespace Decimal

open List

inductive Signal where
  | invalidOperation
  | overflow
deriving Repr, DecidableEq

inductive Numeral where
  | finite (d : Decimal)
  | infinite (negative : Bool)
  | nan (signaling : Bool)
deriving Repr, DecidableEq

/-- The code points of the zeros of all scripts; nine digits follow each. -/
def zeroCodes : List ℕ :=
  [0x30, 0x660, 0x6f0, 0x7c0, 0x966, 0x9e6, 0xa66, 0xae6, 0xb66, 0xbe6, 0xc66, 0xce6, 0xd66, 0xde6,
    0xe50, 0xed0, 0xf20, 0x1040, 0x1090, 0x17e0, 0x1810, 0x1946, 0x19d0, 0x1a80, 0x1a90, 0x1b50,
    0x1bb0, 0x1c40, 0x1c50, 0xa620, 0xa8d0, 0xa900, 0xa9d0, 0xa9f0, 0xaa50, 0xabf0, 0xff10, 0x104a0,
    0x10d30, 0x11066, 0x110f0, 0x11136, 0x111d0, 0x112f0, 0x11450, 0x114d0, 0x11650, 0x116c0,
    0x11730, 0x118e0, 0x11950, 0x11c50, 0x11d50, 0x11da0, 0x11f50, 0x16a60, 0x16ac0, 0x16b50,
    0x1d7ce, 0x1d7d8, 0x1d7e2, 0x1d7ec, 0x1d7f6, 0x1e140, 0x1e2f0, 0x1e4d0, 0x1e950, 0x1fbf0]

def isSpace (c : Char) : Bool :=
  let n := c.toNat
  (9 ≤ n && n ≤ 13) || (28 ≤ n && n ≤ 32) || (0x2000 ≤ n && n ≤ 0x200a) ||
    [0x85, 0xa0, 0x1680, 0x2028, 0x2029, 0x202f, 0x205f, 0x3000].contains n

/-- The ASCII character that stands for a character of a numeral. -/
def asciiChar? (c : Char) : Option Char :=
  if 0 < c.toNat ∧ c.toNat ≤ 127 then some c
  else if isSpace c then some ' '
  else (zeroCodes.find? fun z => z ≤ c.toNat ∧ c.toNat < z + 10).map fun z =>
    Char.ofNat (48 + (c.toNat - z))

def strip (cs : List Char) : List Char :=
  (((cs.dropWhile isSpace).reverse).dropWhile isSpace).reverse

def numericAsAscii (cs : List Char) : Option (List Char) :=
  ((strip cs).filter (· ≠ '_')).mapM asciiChar?

def splitSign : List Char → Bool × List Char
  | '-' :: cs => (true, cs)
  | '+' :: cs => (false, cs)
  | cs => (false, cs)

def isExponentMark (c : Char) : Bool := c == 'e' || c == 'E'

/-- The digits after the exponent mark, with an optional sign. -/
def scanExponent (cs : List Char) : Option ℤ :=
  let (negative, ds) := splitSign cs
  if ds.isEmpty || !ds.all Char.isDigit then none
  else some (if negative then -digitsValue ds else digitsValue ds)

/-- Digits with at most one point, then an optional exponent. -/
def scanFinite (negative : Bool) (cs : List Char) : Option Decimal :=
  let parts := splitPoint (cs.takeWhile fun c => !isExponentMark c)
  let digits := parts.1 ++ parts.2.getD []
  if digits.isEmpty || !digits.all Char.isDigit then none
  else
    let exponent? := match cs.dropWhile fun c => !isExponentMark c with
      | [] => some 0
      | _ :: rest => scanExponent rest
    exponent?.map fun exponent =>
      ⟨negative, digitsValue digits, exponent - ((parts.2.getD []).length : ℤ)⟩

/-- The exponent of the first digit. -/
def adjusted (d : Decimal) : ℤ := d.exponent + digits d.coefficient - 1

def maxEmax : ℤ := 999999999999999999
def minEtiny : ℤ := -1999999999999999997

def startsWith (pattern cs : List Char) : Bool := pattern.isPrefixOf (cs.map Char.toLower)

/-- The numeral of a text, without the blanks around it. -/
def Numeral.ofString (s : String) : Option Numeral := do
  let cs ← numericAsAscii s.toList
  let (negative, body) := splitSign cs
  if startsWith ['n', 'a', 'n'] body && (body.drop 3).all Char.isDigit then
    return .nan false
  else if startsWith ['s', 'n', 'a', 'n'] body && (body.drop 4).all Char.isDigit then
    return .nan true
  else if body.map Char.toLower = ['i', 'n', 'f'] ∨
      body.map Char.toLower = ['i', 'n', 'f', 'i', 'n', 'i', 't', 'y'] then
    return .infinite negative
  else
    let d ← scanFinite negative body
    if adjusted d ≤ maxEmax ∧ minEtiny ≤ d.exponent then return .finite d else none

def emax : ℤ := 999999
def emin : ℤ := -999999

/-- Round an exact result to the digits and to the exponents of the context. -/
def finalize (prec : ℕ) (d : Decimal) : Except Signal Decimal :=
  let etiny := emin - (prec - 1)
  let r := if adjusted d < emin ∧ d.exponent < etiny then
      ⟨d.negative, halfEven d.coefficient (10 ^ (etiny - d.exponent).toNat), etiny⟩
    else round prec d
  if r.coefficient ≠ 0 ∧ emax < adjusted r then .error .overflow else .ok r

namespace Numeral

def isFinite : Numeral → Bool
  | finite _ => true
  | _ => false

def negate : Numeral → Numeral
  | finite d => finite (copyNegate d)
  | infinite negative => infinite (!negative)
  | nan signaling => nan signaling

def add (prec : ℕ) : Numeral → Numeral → Except Signal Numeral
  | nan true, _ => .error .invalidOperation
  | _, nan true => .error .invalidOperation
  | nan false, _ => .ok (nan false)
  | _, nan false => .ok (nan false)
  | infinite a, infinite b => if a = b then .ok (infinite a) else .error .invalidOperation
  | infinite a, finite _ => .ok (infinite a)
  | finite _, infinite b => .ok (infinite b)
  | finite a, finite b => (finalize prec (addExact a b)).map finite

def sub (prec : ℕ) (a b : Numeral) : Except Signal Numeral := add prec a b.negate

/-- `==`, which signals for a signaling value only. -/
def equals : Numeral → Numeral → Except Signal Bool
  | nan true, _ => .error .invalidOperation
  | _, nan true => .error .invalidOperation
  | infinite a, infinite b => .ok (a == b)
  | finite a, finite b => .ok (decide (a ≈ b))
  | _, _ => .ok false

end Numeral

example : Numeral.ofString " +1_0.50e-1\n" = some (.finite ⟨false, 1050, -3⟩) := by decide +kernel
example : Numeral.ofString "ten" = none := by decide +kernel

def IsPlain (c : Char) : Prop := c.isDigit ∨ c = '.' ∨ c = '-'

variable {c : Char} {cs : List Char} {w : ℕ} {s : String}

theorem toNat_of_isPlain (h : IsPlain c) : 45 ≤ c.toNat ∧ c.toNat ≤ 57 := by
  rcases h with h | rfl | rfl
  · unfold Char.isDigit at h
    simp only [ge_iff_le, Bool.and_eq_true, decide_eq_true_eq] at h
    have hlow : (48 : ℕ) ≤ c.toNat := h.1
    have hhigh : c.toNat ≤ 57 := h.2
    omega
  · decide
  · decide

theorem isSpace_of_isPlain (h : IsPlain c) : isSpace c = false := by
  have hrange := toNat_of_isPlain h
  unfold isSpace
  simp only [contains_eq_mem, mem_cons, not_mem_nil, or_false, Bool.or_eq_false_iff,
    Bool.and_eq_false_iff, decide_eq_false_iff_not]
  omega

theorem asciiChar?_of_isPlain (h : IsPlain c) : asciiChar? c = some c := by
  have hrange := toNat_of_isPlain h
  exact if_pos (by omega)

theorem isExponentMark_of_isPlain (h : IsPlain c) : isExponentMark c = false := by
  have hrange := toNat_of_isPlain h
  unfold isExponentMark
  rw [Bool.or_eq_false_iff, beq_eq_false_iff_ne, beq_eq_false_iff_ne]
  constructor <;> rintro rfl <;> exact absurd hrange (by decide)

theorem numericAsAscii_of_isPlain (h : ∀ c ∈ cs, IsPlain c) :
    numericAsAscii cs = some cs := by
  have hdrop : ∀ {ds : List Char}, (∀ c ∈ ds, IsPlain c) → ds.dropWhile isSpace = ds := by
    intro ds hds
    cases ds with
    | nil => rfl
    | cons d ds => simp [isSpace_of_isPlain (hds d mem_cons_self)]
  have hstrip : strip cs = cs := by
    unfold strip
    rw [hdrop h, hdrop (fun c hc => h c (mem_reverse.mp hc)), reverse_reverse]
  have hfilter : cs.filter (· ≠ '_') = cs := by
    rw [filter_eq_self]
    intro c hc
    rw [decide_eq_true_eq]
    rintro rfl
    exact absurd (toNat_of_isPlain (h _ hc)) (by decide)
  unfold numericAsAscii
  rw [hstrip, hfilter]
  clear hstrip hfilter
  induction cs with
  | nil => rfl
  | cons c cs ih =>
    rw [mapM_cons, asciiChar?_of_isPlain (h c mem_cons_self),
      ih fun d hd => h d (mem_cons_of_mem _ hd)]
    rfl

theorem isPlain_of_plainChars {f : ℕ} (hw : 0 < w) (h : plainChars w f cs) :
    ∀ c ∈ cs, c.isDigit ∨ c = '.' := by
  rw [plainChars, Bool.and_eq_true] at h
  obtain ⟨hwhole, -⟩ := wholeText_digits hw h.1
  obtain ⟨hfraction, -⟩ := fractionText_digits h.2
  intro c hc
  rw [append_splitPoint cs, mem_append] at hc
  rcases hc with hc | hc
  · exact .inl (all_eq_true.mp hwhole c hc)
  · cases hparts : (splitPoint cs).2 with
    | none =>
      rw [hparts] at hc
      cases hc
    | some ds =>
      rw [hparts] at hc hfraction
      rcases mem_cons.mp hc with rfl | hc
      · exact .inr rfl
      · exact .inl (all_eq_true.mp hfraction c hc)

theorem head_of_plainChars {f : ℕ} (hw : 0 < w) (h : plainChars w f cs) :
    ∃ c rest, cs = c :: rest ∧ c.isDigit := by
  have hne : (splitPoint cs).1 ≠ [] := by
    intro hnil
    rw [plainChars, hnil, Bool.and_eq_true] at h
    exact absurd h.1 (by simp [wholeText])
  rw [plainChars, Bool.and_eq_true] at h
  obtain ⟨hwhole, -⟩ := wholeText_digits hw h.1
  cases cs with
  | nil => exact (hne rfl).elim
  | cons c rest =>
    refine ⟨c, rest, rfl, ?_⟩
    by_cases hpoint : c = '.'
    · subst hpoint
      exact (hne rfl).elim
    · have hmem : c ∈ (splitPoint (c :: rest)).1 := by
        unfold splitPoint
        rw [takeWhile_cons_of_pos (by simpa using hpoint)]
        exact mem_cons_self
      exact all_eq_true.mp hwhole c hmem

theorem scanFinite_of_plainChars {f : ℕ} (hw : 0 < w) (h : plainChars w f cs)
    (negative : Bool) : scanFinite negative cs = some (ofChars negative cs) := by
  have hmark : ∀ c ∈ cs, (!isExponentMark c) = true := by
    intro c hc
    rw [isExponentMark_of_isPlain ((isPlain_of_plainChars hw h c hc).elim .inl fun hp => .inr (.inl hp))]
    rfl
  have htake : cs.takeWhile (fun c => !isExponentMark c) = cs := takeWhile_eq_self_iff.mpr hmark
  have hdrop : cs.dropWhile (fun c => !isExponentMark c) = [] := dropWhile_eq_nil_iff.mpr hmark
  have hplain := h
  rw [plainChars, Bool.and_eq_true] at h
  obtain ⟨hwhole, -⟩ := wholeText_digits hw h.1
  obtain ⟨hfraction, -⟩ := fractionText_digits h.2
  have hne : ((splitPoint cs).1 ++ (splitPoint cs).2.getD []).isEmpty = false := by
    rw [isEmpty_eq_false_iff]
    intro hnil
    rw [(append_eq_nil_iff.mp hnil).1] at h
    exact absurd h.1 (by simp [wholeText])
  have hall : ((splitPoint cs).1 ++ (splitPoint cs).2.getD []).all Char.isDigit = true := by
    rw [all_append, hwhole, hfraction]
    rfl
  unfold scanFinite
  rw [htake, hdrop]
  dsimp only
  rw [hne, hall]
  simp only [Bool.not_true, Bool.or_self, Bool.false_eq_true, if_false, Option.map_some, zero_sub]
  rfl

/-- The sign of a plain text, and the plain text behind it. -/
theorem parts_of_signedText {f : ℕ} (hw : 0 < w) (h : signedText w f s) :
    ∃ negative body, splitSign s.toList = (negative, body) ∧ plainChars w f body ∧
      ofText s = ofChars negative body ∧ ∀ c ∈ s.toList, IsPlain c := by
  by_cases hminus : ∃ cs, s.toList = '-' :: cs
  · obtain ⟨cs, hcs⟩ := hminus
    have hplain : plainChars w f cs := by
      rw [signedText, hcs] at h
      exact h
    have hvalue : ofText s = ofChars true cs := by
      unfold ofText
      rw [hcs]
      rfl
    refine ⟨true, cs, by rw [hcs]; rfl, hplain, hvalue, ?_⟩
    intro c hc
    rw [hcs] at hc
    rcases mem_cons.mp hc with rfl | hc
    · exact .inr (.inr rfl)
    · exact (isPlain_of_plainChars hw hplain c hc).elim .inl fun hp => .inr (.inl hp)
  · have hplain : plainChars w f s.toList :=
      plainChars_of_not_minus (fun cs hcs => hminus ⟨cs, hcs⟩) h
    obtain ⟨c, rest, hcs, hdigit⟩ := head_of_plainChars hw hplain
    have hne : c ≠ '-' := by
      rintro rfl
      exact absurd hdigit (by decide)
    have hplus : c ≠ '+' := by
      rintro rfl
      exact absurd hdigit (by decide)
    refine ⟨false, s.toList, ?_, hplain, ?_, ?_⟩
    · rw [hcs]
      unfold splitSign
      split
      · rename_i heq
        exact (hne (List.cons.inj heq).1).elim
      · rename_i heq
        exact (hplus (List.cons.inj heq).1).elim
      · rfl
    · unfold ofText
      split
      · rename_i cs heq
        exact (hminus ⟨cs, heq⟩).elim
      · rfl
    · exact fun c hc => (isPlain_of_plainChars hw hplain c hc).elim .inl fun hp => .inr (.inl hp)

/-- A plain text is read as the number it denotes, unless that is beyond the limits. -/
theorem Numeral.ofString_signedText {f : ℕ} (hw : 0 < w) (h : signedText w f s) :
    Numeral.ofString s =
      if adjusted (ofText s) ≤ maxEmax ∧ minEtiny ≤ (ofText s).exponent then
        some (.finite (ofText s)) else none := by
  obtain ⟨negative, body, hsplit, hbody, hvalue, hchars⟩ := parts_of_signedText hw h
  obtain ⟨c, rest, hcons, hdigit⟩ := head_of_plainChars hw hbody
  have hlower : ∀ d : Char, d = 'n' ∨ d = 's' ∨ d = 'i' → d ≠ c.toLower := by
    intro d hd heq
    have hc : c.toLower = c := by
      unfold Char.toLower
      rw [dif_neg]
      have hrange := toNat_of_isPlain (.inl hdigit)
      rintro ⟨hlow, -⟩
      have hlow' : (65 : ℕ) ≤ c.toNat := hlow
      omega
    rw [hc] at heq
    subst heq
    rcases hd with rfl | rfl | rfl <;> exact absurd hdigit (by decide)
  have hstart : ∀ (d : Char) (ds : List Char), d = 'n' ∨ d = 's' ∨ d = 'i' →
      startsWith (d :: ds) body = false := by
    intro d ds hd
    rw [hcons, startsWith, map_cons, isPrefixOf]
    rw [beq_eq_false_iff_ne.mpr (hlower d hd)]
    rfl
  have hinfinite : ∀ (d : Char) (ds : List Char), d = 'n' ∨ d = 's' ∨ d = 'i' →
      body.map Char.toLower ≠ d :: ds := by
    intro d ds hd heq
    rw [hcons, map_cons] at heq
    exact hlower d hd (List.cons.inj heq).1.symm
  have hinf : ¬ (body.map Char.toLower = ['i', 'n', 'f'] ∨
      body.map Char.toLower = ['i', 'n', 'f', 'i', 'n', 'i', 't', 'y']) :=
    not_or.mpr ⟨hinfinite _ _ (.inr (.inr rfl)), hinfinite _ _ (.inr (.inr rfl))⟩
  unfold Numeral.ofString
  rw [numericAsAscii_of_isPlain hchars, Option.bind_eq_bind, Option.bind_some, hsplit]
  dsimp only
  rw [hstart _ _ (.inl rfl), hstart _ _ (.inr (.inl rfl)), Bool.false_and, Bool.false_and,
    if_neg Bool.false_ne_true, if_neg Bool.false_ne_true, if_neg hinf,
    scanFinite_of_plainChars hw hbody, Option.bind_eq_bind, Option.bind_some, hvalue]
  rfl

theorem Numeral.ofString_of_signedText {f : ℕ} (hw : 0 < w)
    (h : signedText w f s) (hmax : adjusted (ofText s) ≤ maxEmax)
    (hmin : minEtiny ≤ (ofText s).exponent) :
    Numeral.ofString s = some (.finite (ofText s)) := by
  rw [Numeral.ofString_signedText hw h, if_pos ⟨hmax, hmin⟩]

theorem Numeral.eq_ofText_of_ofString {f : ℕ} {d : Decimal} (hw : 0 < w)
    (h : signedText w f s) (hd : Numeral.ofString s = some (.finite d)) : d = ofText s := by
  rw [Numeral.ofString_signedText hw h] at hd
  split at hd
  · cases hd
    rfl
  · cases hd

/-!
## Sums of moderate numbers

A sum that fits the digits of the context is far from both ends of its exponents,
so that it neither overflows nor loses a digit.
-/

theorem abs_toRat (d : Decimal) : |d.toRat| = d.coefficient * (10 : ℚ) ^ d.exponent := by
  rw [toRat, abs_mul, abs_of_pos (by positivity : (0 : ℚ) < 10 ^ d.exponent), ← Int.cast_abs,
    Int.abs_eq_natAbs, natAbs_int, Int.cast_natCast]

theorem pow_adjusted_le {d : Decimal} (h : d.coefficient ≠ 0) : (10 : ℚ) ^ adjusted d ≤ |d.toRat| := by
  have hlow : 10 ^ Nat.log 10 d.coefficient ≤ d.coefficient := Nat.pow_log_le_self 10 h
  have hexponent : adjusted d = (Nat.log 10 d.coefficient : ℤ) + d.exponent := by
    unfold adjusted digits
    push_cast
    ring
  rw [abs_toRat, hexponent, zpow_add₀ (by norm_num), zpow_natCast]
  apply mul_le_mul_of_nonneg_right
  · exact_mod_cast hlow
  · positivity

theorem lt_pow_adjusted (d : Decimal) : |d.toRat| < (10 : ℚ) ^ (adjusted d + 1) := by
  have hhigh : d.coefficient < 10 ^ digits d.coefficient := lt_pow_digits _
  have hexponent : adjusted d + 1 = (digits d.coefficient : ℤ) + d.exponent := by
    unfold adjusted
    ring
  rw [abs_toRat, hexponent, zpow_add₀ (by norm_num), zpow_natCast]
  apply mul_lt_mul_of_pos_right
  · exact_mod_cast hhigh
  · positivity

theorem OnGrid.le_abs {f : ℕ} {q : ℚ} (h : OnGrid f q) (hne : q ≠ 0) : (10 : ℚ) ^ (-(f : ℤ)) ≤ |q| := by
  obtain ⟨n, hn⟩ := h
  have hpow : (0 : ℚ) < 10 ^ f := by positivity
  have hn0 : n ≠ 0 := by
    rintro rfl
    rw [Int.cast_zero, mul_eq_zero] at hn
    exact hn.elim hne hpow.ne'
  have hone : (1 : ℚ) ≤ |(n : ℚ)| := by exact_mod_cast Int.one_le_abs hn0
  rw [← hn, abs_mul, abs_of_pos hpow] at hone
  rw [zpow_neg, zpow_natCast, inv_eq_one_div]
  exact (div_le_iff₀ hpow).mpr hone

variable {prec f b : ℕ} {d : Decimal}

theorem finalize_of_fits (hp : 0 < prec) (h : Fits f b d.toRat) (hroom : f + b ≤ prec)
    (hprec : prec ≤ 999999) : ∃ r, finalize prec d = .ok r ∧ r.toRat = d.toRat := by
  unfold finalize
  dsimp only
  by_cases htiny : adjusted d < emin ∧ d.exponent < emin - (prec - 1)
  · -- nothing but zero is that small
    have hzero : d.coefficient = 0 := by
      by_contra hne
      have hlow := h.onGrid.le_abs ((toRat_eq_zero_iff d).not.mpr hne)
      have hlt := (zpow_lt_zpow_iff_right₀ (by norm_num : (1 : ℚ) < 10)).mp
        (hlow.trans_lt (lt_pow_adjusted d))
      have := htiny.1
      unfold emin at this
      omega
    rw [if_pos htiny, hzero]
    refine ⟨_, if_neg ?_, ?_⟩
    · simp [halfEven]
    · rw [(toRat_eq_zero_iff d).mpr hzero, toRat_eq_zero_iff]
      simp [halfEven]
  · rw [if_neg htiny]
    have hvalue := toRat_round hp (h.representable hroom)
    refine ⟨_, if_neg ?_, hvalue⟩
    intro hlarge
    have hlow := pow_adjusted_le hlarge.1
    rw [hvalue] at hlow
    have hlt := hlow.trans_lt h.lt
    rw [← zpow_natCast, zpow_lt_zpow_iff_right₀ (by norm_num)] at hlt
    have := hlarge.2
    unfold emax at this
    omega

theorem Numeral.add_of_fits {a c : Decimal} (hp : 0 < prec) (h : Fits f b (a.toRat + c.toRat))
    (hroom : f + b ≤ prec) (hprec : prec ≤ 999999) :
    ∃ r : Decimal, Numeral.add prec (.finite a) (.finite c) = .ok (.finite r) ∧
      r.toRat = a.toRat + c.toRat := by
  rw [← toRat_addExact] at h ⊢
  obtain ⟨r, hr, hvalue⟩ := finalize_of_fits hp h hroom hprec
  refine ⟨r, ?_, hvalue⟩
  rw [Numeral.add, hr]
  rfl

theorem Numeral.sub_of_fits {a c : Decimal} (hp : 0 < prec) (h : Fits f b (a.toRat - c.toRat))
    (hroom : f + b ≤ prec) (hprec : prec ≤ 999999) :
    ∃ r : Decimal, Numeral.sub prec (.finite a) (.finite c) = .ok (.finite r) ∧
      r.toRat = a.toRat - c.toRat := by
  rw [sub_eq_add_neg, ← toRat_copyNegate] at h ⊢
  exact Numeral.add_of_fits hp h hroom hprec

end Decimal
