import TradingLab.Json.Parser
import TradingLab.Decimal.Numeral
import Mathlib.Data.Rat.Floor

/-!
# Numbers in JSON values

A literal with a fraction or an exponent denotes the nearest binary64 number, and
is written back as the shortest literal of that number. Values compare as their
source language compares them: booleans, integers and floating-point numbers by
what they denote, everything else by structure.
-/

namespace Json

open Decimal (digits halfEven)

inductive Binary64 where
  | finite (negative : Bool) (magnitude : ℚ)
  | infinite (negative : Bool)
  | nan
deriving DecidableEq

namespace Binary64

/-- The exponent of the last bit of the nearest number to `n / d`. -/
def lastBit (n d : ℕ) : ℤ :=
  let e : ℤ := Nat.log2 n - Nat.log2 d - 53
  let e := if 2 ^ 53 * (d * 2 ^ e.toNat) ≤ n * 2 ^ (-e).toNat then e + 1 else e
  max e (-1074)

/-- The nearest number to `n / d`, the even one of two. -/
def nearest (negative : Bool) (n d : ℕ) : Binary64 :=
  if n = 0 then finite negative 0
  else
    let e := lastBit n d
    let magnitude : ℚ := halfEven (n * 2 ^ (-e).toNat) (d * 2 ^ e.toNat) * 2 ^ e
    if 2 ^ 1024 ≤ magnitude then infinite negative else finite negative magnitude

/-- Beyond four hundred digits on either side the result is known. -/
def ofDecimal (d : Decimal) : Binary64 :=
  if d.coefficient = 0 ∨ Decimal.adjusted d < -400 then finite d.negative 0
  else if 400 < Decimal.adjusted d then infinite d.negative
  else nearest d.negative (d.coefficient * 10 ^ d.exponent.toNat) (10 ^ (-d.exponent).toNat)

def ofLiteral (literal : String) : Binary64 :=
  if literal = "Infinity" then infinite false
  else if literal = "-Infinity" then infinite true
  else
    let (negative, body) := Decimal.splitSign literal.toList
    match Decimal.scanFinite negative body with
    | some d => ofDecimal d
    | none => nan

/-- `n` digits from the exponent of the first digit on, cut off or one more. -/
def candidates (magnitude : ℚ) (first : ℤ) (n : ℕ) : List Decimal :=
  let e := first - n + 1
  let c := (magnitude / 10 ^ e).floor.toNat
  [⟨false, c, e⟩, ⟨false, c + 1, e⟩]

/-- The closer of two decimals, the even one on a tie. -/
def closer (magnitude : ℚ) (a b : Decimal) : Decimal :=
  let da := |a.toRat - magnitude|
  let db := |b.toRat - magnitude|
  if da < db ∨ (da = db ∧ a.coefficient % 2 = 0) then a else b

/-- The shortest decimal that is read back as the number. -/
def shortest (magnitude : ℚ) : Decimal :=
  let first : ℤ := Nat.log 10 magnitude.floor.toNat
  let first := if 1 ≤ magnitude then first else
    -((List.range 400).find? fun k : ℕ => 1 ≤ magnitude * 10 ^ k).getD 0
  let attempt := fun n =>
    match (candidates magnitude first n).filter fun d =>
        decide (ofDecimal d = finite false magnitude) with
    | [] => none
    | [a] => some a
    | a :: b :: _ => some (closer magnitude a b)
  ((List.range 18).findSome? fun n => if n = 0 then none else attempt n).getD 0

/-- Digits without trailing zeros, and the place of the point before them. -/
def trim (d : Decimal) : List Char × ℤ :=
  let ds := Nat.toDigits 10 d.coefficient
  ((ds.reverse.dropWhile (· = '0')).reverse, d.exponent + ds.length)

def exponentChars (e : ℤ) : List Char :=
  let ds := Nat.toDigits 10 e.natAbs
  (if e < 0 then '-' else '+') :: (List.replicate (2 - ds.length) '0' ++ ds)

/-- The literal of a positive number. -/
def reprChars (magnitude : ℚ) : List Char :=
  let (ds, point) := trim (shortest magnitude)
  if point ≤ -4 ∨ 16 < point then
    ds.take 1 ++ (if ds.length ≤ 1 then [] else '.' :: ds.drop 1) ++
      'e' :: exponentChars (point - 1)
  else if point ≤ 0 then '0' :: '.' :: (List.replicate (-point).toNat '0' ++ ds)
  else
    let whole := ds.take point.toNat ++ List.replicate (point.toNat - ds.length) '0'
    let fraction := ds.drop point.toNat
    whole ++ '.' :: (if fraction.isEmpty then ['0'] else fraction)

def repr : Binary64 → String
  | nan => "NaN"
  | infinite false => "Infinity"
  | infinite true => "-Infinity"
  | finite negative magnitude =>
      let chars := if magnitude = 0 then ['0', '.', '0'] else reprChars magnitude
      String.ofList (if negative then '-' :: chars else chars)

def toRat? : Binary64 → Option ℚ
  | finite negative magnitude => some (if negative then -magnitude else magnitude)
  | _ => none

end Binary64

inductive Number where
  | rational (q : ℚ)
  | infinite (negative : Bool)
  | nan
deriving DecidableEq

def number? : Json → Option Number
  | .bool b => some (.rational (if b then 1 else 0))
  | .int n => some (.rational n)
  | .float literal => some (match Binary64.ofLiteral literal with
      | .finite negative magnitude => .rational (if negative then -magnitude else magnitude)
      | .infinite negative => .infinite negative
      | .nan => .nan)
  | _ => none

def Number.same : Number → Number → Bool
  | .rational a, .rational b => a = b
  | .infinite a, .infinite b => a == b
  | _, _ => false

mutual

def same : Json → Json → Bool
  | .null, .null => true
  | .str a, .str b => a == b
  | .array xs, .array ys => sameItems xs ys
  | .object ms, .object ns => sameMembers ms ns
  | a, b =>
      match number? a, number? b with
      | some m, some n => m.same n
      | _, _ => false

def sameItems : JsonItems → JsonItems → Bool
  | .nil, .nil => true
  | .cons x xs, .cons y ys => same x y && sameItems xs ys
  | _, _ => false

/-- Members are sorted by their keys, so equal dictionaries agree position by position. -/
def sameMembers : JsonMembers → JsonMembers → Bool
  | .nil, .nil => true
  | .cons k v ms, .cons l w ns => k == l && same v w && sameMembers ms ns
  | _, _ => false

end

mutual

/-- Every floating-point literal in the form in which it is written. -/
def normal : Json → Json
  | .float literal => .float (Binary64.ofLiteral literal).repr
  | .array xs => .array (normalItems xs)
  | .object ms => .object (normalMembers ms)
  | v => v

def normalItems : JsonItems → JsonItems
  | .nil => .nil
  | .cons x xs => .cons x.normal (normalItems xs)

def normalMembers : JsonMembers → JsonMembers
  | .nil => .nil
  | .cons k v ms => .cons k v.normal (normalMembers ms)

end

example : (["1.50", "1e16", "0.00001", "123456789.125", "1e400", "0.1"].map fun l =>
    (Binary64.ofLiteral l).repr) =
    ["1.5", "1e+16", "1e-05", "123456789.125", "Infinity", "0.1"] := by
  decide +kernel

end Json
