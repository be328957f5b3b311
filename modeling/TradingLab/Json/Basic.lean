import TradingLab.Hash.Sha256
import Mathlib.Data.Nat.Digits.Defs

/-!
# JSON values and their canonical text

An object is a list of members in increasing order of their keys, so that equal
dictionaries are equal values. The canonical text has no blanks and only
printable ASCII: everything else is escaped.

A floating-point number is kept as the literal it was read from.
-/

mutual

inductive Json where
  | null
  | bool (b : Bool)
  | int (n : ℤ)
  | float (literal : String)
  | str (s : String)
  | array (items : JsonItems)
  | object (members : JsonMembers)
deriving Repr, DecidableEq

inductive JsonItems where
  | nil
  | cons (item : Json) (items : JsonItems)
deriving Repr, DecidableEq

inductive JsonMembers where
  | nil
  | cons (key : String) (value : Json) (members : JsonMembers)
deriving Repr, DecidableEq

end

/-- Order of keys: by code points. -/
def keyLt : List Char → List Char → Bool
  | _, [] => false
  | [], _ :: _ => true
  | c :: cs, d :: ds => c.toNat < d.toNat || (c == d && keyLt cs ds)

namespace JsonItems

def ofList : List Json → JsonItems
  | [] => nil
  | x :: xs => cons x (ofList xs)

def toList : JsonItems → List Json
  | nil => []
  | cons x xs => x :: xs.toList

@[simp] theorem toList_ofList (xs : List Json) : (ofList xs).toList = xs := by
  induction xs with
  | nil => rfl
  | cons x xs ih => rw [ofList, toList, ih]

end JsonItems

namespace JsonMembers

/-- Set a key; an existing value is replaced. -/
def insert (key : String) (value : Json) : JsonMembers → JsonMembers
  | nil => cons key value nil
  | cons k v ms =>
      if key = k then cons key value ms
      else if keyLt key.toList k.toList then cons key value (cons k v ms)
      else cons k v (insert key value ms)

def lookup (key : String) : JsonMembers → Option Json
  | nil => none
  | cons k v ms => if key = k then some v else lookup key ms

/-- Every key comes after the given one. -/
def Above (key : String) : JsonMembers → Prop
  | nil => True
  | cons k _ ms => keyLt key.toList k.toList = true ∧ Above key ms

end JsonMembers

namespace Json

def dict (entries : List (String × Json)) : Json :=
  .object (entries.foldl (fun ms e => ms.insert e.1 e.2) .nil)

def list (items : List Json) : Json := .array (JsonItems.ofList items)

def get? (v : Json) (key : String) : Option Json :=
  match v with
  | .object ms => ms.lookup key
  | _ => none

def str? : Json → Option String
  | .str s => some s
  | _ => none

def int? : Json → Option ℤ
  | .int n => some n
  | _ => none

def ofOption {α : Type} (f : α → Json) : Option α → Json
  | none => .null
  | some a => f a

def optionStr : Option String → Json := ofOption .str
def optionInt : Option ℤ → Json := ofOption .int

def intChars (n : ℤ) : List Char :=
  if n < 0 then '-' :: Nat.toDigits 10 n.natAbs else Nat.toDigits 10 n.natAbs

def hexChar (n : ℕ) : Char := if n < 10 then Char.ofNat (48 + n) else Char.ofNat (87 + n)

/-- `\uXXXX` for a sixteen-bit unit. -/
def unitChars (n : ℕ) : List Char :=
  ['\\', 'u', hexChar (n / 4096 % 16), hexChar (n / 256 % 16), hexChar (n / 16 % 16),
    hexChar (n % 16)]

def escapeChar (c : Char) : List Char :=
  if c = '"' then ['\\', '"']
  else if c = '\\' then ['\\', '\\']
  else if c = '\n' then ['\\', 'n']
  else if c = '\r' then ['\\', 'r']
  else if c = '\t' then ['\\', 't']
  else if c.toNat = 12 then ['\\', 'f']
  else if c.toNat = 8 then ['\\', 'b']
  else if 32 ≤ c.toNat ∧ c.toNat ≤ 126 then [c]
  else if c.toNat < 65536 then unitChars c.toNat
  else unitChars (0xd800 + (c.toNat - 65536) / 1024) ++
    unitChars (0xdc00 + (c.toNat - 65536) % 1024)

def strChars (s : String) : List Char := '"' :: (s.toList.flatMap escapeChar ++ ['"'])

mutual

/-- The text of a value, with sorted keys and without blanks. -/
def text : Json → List Char
  | .null => ['n', 'u', 'l', 'l']
  | .bool true => ['t', 'r', 'u', 'e']
  | .bool false => ['f', 'a', 'l', 's', 'e']
  | .int n => intChars n
  | .float literal => literal.toList
  | .str s => strChars s
  | .array .nil => ['[', ']']
  | .array (.cons x xs) => '[' :: (text x ++ (itemsText xs ++ [']']))
  | .object .nil => ['{', '}']
  | .object (.cons k v ms) => '{' :: (strChars k ++ (':' :: (text v ++ (membersText ms ++ ['}']))))

/-- The items after the first one, each with the comma before it. -/
def itemsText : JsonItems → List Char
  | .nil => []
  | .cons x xs => ',' :: (text x ++ itemsText xs)

def membersText : JsonMembers → List Char
  | .nil => []
  | .cons k v ms => ',' :: (strChars k ++ (':' :: (text v ++ membersText ms)))

end

def dumps (v : Json) : String := String.ofList v.text

end Json

example : Json.dumps (.dict [("b", .list [.int (-7), .null]), ("a", .str "x\"\n")]) =
    "\x7b\"a\":\"x\\\"\\n\",\"b\":[-7,null]\x7d" := by
  decide

/-!
## Digests of JSON values

A record is identified by the digest of the canonical text of its payload.
-/

namespace Json

def sha256 (v : Json) : String := Sha256.hexDigest v.text

@[simp] theorem isHexDigest_sha256 (v : Json) : Sha256.isHexDigest v.sha256 = true :=
  Sha256.isHexDigest_hexDigest _

/-!
## The unescaped canonical text

The candidate factory writes its documents with sorted keys and without blanks,
as the other records, but leaves every character beyond ASCII as it is, and ends
a document with a line feed.
-/

/-- Only quotes, backslashes and control characters are escaped. -/
def escapePlain (c : Char) : List Char :=
  if c.toNat < 127 then escapeChar c else [c]

def plainStrChars (s : String) : List Char := '"' :: (s.toList.flatMap escapePlain ++ ['"'])

mutual

def plainText : Json → List Char
  | .null => ['n', 'u', 'l', 'l']
  | .bool true => ['t', 'r', 'u', 'e']
  | .bool false => ['f', 'a', 'l', 's', 'e']
  | .int n => intChars n
  | .float literal => literal.toList
  | .str s => plainStrChars s
  | .array .nil => ['[', ']']
  | .array (.cons x xs) => '[' :: (plainText x ++ (plainItemsText xs ++ [']']))
  | .object .nil => ['{', '}']
  | .object (.cons k v ms) =>
      '{' :: (plainStrChars k ++ (':' :: (plainText v ++ (plainMembersText ms ++ ['}']))))

def plainItemsText : JsonItems → List Char
  | .nil => []
  | .cons x xs => ',' :: (plainText x ++ plainItemsText xs)

def plainMembersText : JsonMembers → List Char
  | .nil => []
  | .cons k v ms => ',' :: (plainStrChars k ++ (':' :: (plainText v ++ plainMembersText ms)))

end

def canonical (v : Json) : List Char := v.plainText ++ ['\n']

def digest (v : Json) : String := Sha256.hexDigest v.canonical

@[simp] theorem isHexDigest_digest (v : Json) : Sha256.isHexDigest v.digest = true :=
  Sha256.isHexDigest_hexDigest _

end Json
