import TradingLab.Json.Basic
import TradingLab.Text.Digits

/-!
# Reading JSON text

A recursive-descent reader over the characters of the text. It accepts blanks
between tokens, all escapes and the three non-finite literals. A repeated key
keeps its last value. The recursion is bounded by the length of the text.
-/

namespace Json

def isBlank (c : Char) : Bool := c == ' ' || c == '\t' || c == '\n' || c == '\r'

def skipBlanks (cs : List Char) : List Char := cs.dropWhile isBlank

def hexValue (c : Char) : Option ℕ :=
  if '0' ≤ c ∧ c ≤ '9' then some (c.toNat - 48)
  else if 'a' ≤ c ∧ c ≤ 'f' then some (c.toNat - 87)
  else if 'A' ≤ c ∧ c ≤ 'F' then some (c.toNat - 55)
  else none

/-- Four hexadecimal digits. -/
def readUnit : List Char → Option (ℕ × List Char)
  | a :: b :: c :: d :: rest => do
      let a ← hexValue a
      let b ← hexValue b
      let c ← hexValue c
      let d ← hexValue d
      return (((a * 16 + b) * 16 + c) * 16 + d, rest)
  | _ => none

/-- The low half of a surrogate pair, when the text goes on with one. -/
def readLowUnit (cs : List Char) : Option (ℕ × List Char) :=
  if cs.take 2 = ['\\', 'u'] then
    match readUnit (cs.drop 2) with
    | some (n, rest) => if 0xdc00 ≤ n ∧ n ≤ 0xdfff then some (n, rest) else none
    | none => none
  else none

def simpleEscape (c : Char) : Option Char :=
  if c = '"' ∨ c = '\\' ∨ c = '/' then some c
  else if c = 'n' then some '\n'
  else if c = 'r' then some '\r'
  else if c = 't' then some '\t'
  else if c = 'f' then some (Char.ofNat 12)
  else if c = 'b' then some (Char.ofNat 8)
  else none

/-- A unit after `\u`, together with a low surrogate if it is a high one. -/
def readUnicode (cs : List Char) : Option (Char × List Char) :=
  match readUnit cs with
  | none => none
  | some (n, rest) =>
      if 0xd800 ≤ n ∧ n ≤ 0xdbff then
        match readLowUnit rest with
        | some (low, rest) => some (Char.ofNat (0x10000 + (n - 0xd800) * 1024 + (low - 0xdc00)), rest)
        | none => some (Char.ofNat n, rest)
      else some (Char.ofNat n, rest)

/-- What follows a backslash. -/
def readEscape : List Char → Option (Char × List Char)
  | [] => none
  | c :: rest => if c = 'u' then readUnicode rest else (simpleEscape c).map fun d => (d, rest)

/-- The rest of a string, after its opening quote. -/
def readString : ℕ → List Char → Option (List Char × List Char)
  | 0, _ => none
  | _ + 1, [] => none
  | n + 1, c :: cs =>
      if c = '"' then some ([], cs)
      else if c = '\\' then
        match readEscape cs with
        | some (d, rest) => (readString n rest).map fun r => (d :: r.1, r.2)
        | none => none
      else if c.toNat < 32 then none
      else (readString n cs).map fun r => (c :: r.1, r.2)

def takeDigits (cs : List Char) : List Char × List Char :=
  (cs.takeWhile Char.isDigit, cs.dropWhile Char.isDigit)

/-- `0`, or digits that do not start with `0`. -/
def readWhole (cs : List Char) : Option (List Char × List Char) :=
  if cs.head? = some '0' then some (['0'], cs.tail)
  else match takeDigits cs with
    | ([], _) => none
    | (ds, rest) => some (ds, rest)

def readFraction : List Char → List Char × List Char
  | [] => ([], [])
  | c :: rest =>
      if c = '.' then
        match takeDigits rest with
        | ([], _) => ([], c :: rest)
        | (ds, rest) => (c :: ds, rest)
      else ([], c :: rest)

/-- An optional sign. -/
def readSign : List Char → List Char × List Char
  | [] => ([], [])
  | c :: rest => if c = '+' ∨ c = '-' then ([c], rest) else ([], c :: rest)

def readExponent : List Char → List Char × List Char
  | [] => ([], [])
  | e :: rest =>
      if e = 'e' ∨ e = 'E' then
        match takeDigits (readSign rest).2 with
        | ([], _) => ([], e :: rest)
        | (ds, more) => (e :: (readSign rest).1 ++ ds, more)
      else ([], e :: rest)

def maxIntDigits : ℕ := 4300

/-- A number after its sign. -/
def readUnsigned (negative : Bool) (cs : List Char) : Option (Json × List Char) :=
  match readWhole cs with
  | none => none
  | some (whole, rest) =>
      let fraction := readFraction rest
      let exponent := readExponent fraction.2
      if fraction.1 = [] ∧ exponent.1 = [] then
        if maxIntDigits < whole.length then none
        else some (.int (if negative then -digitsValue whole else digitsValue whole), rest)
      else
        let sign := if negative then ['-'] else []
        some (.float (String.ofList (sign ++ whole ++ fraction.1 ++ exponent.1)), exponent.2)

def readNumber (cs : List Char) : Option (Json × List Char) :=
  if cs.head? = some '-' then readUnsigned true cs.tail else readUnsigned false cs

/-- The words that stand for values, and the values. -/
def literals : List (List Char × Json) :=
  [("null".toList, .null), ("true".toList, .bool true), ("false".toList, .bool false),
    ("NaN".toList, .float "NaN"), ("Infinity".toList, .float "Infinity"),
    ("-Infinity".toList, .float "-Infinity")]

/-- The first of the literals the text starts with. -/
def readLiteral (cs : List Char) : Option (Json × List Char) :=
  (literals.find? fun l => l.1.isPrefixOf cs).map fun l => (l.2, cs.drop l.1.length)

def readScalar (cs : List Char) : Option (Json × List Char) :=
  match readLiteral cs with
  | some r => some r
  | none => readNumber cs

def expect (c : Char) : List Char → Option (List Char)
  | [] => none
  | d :: rest => if d = c then some rest else none

def readKey (cs : List Char) : Option (List Char × List Char) :=
  match expect '"' cs with
  | none => none
  | some rest => readString (rest.length + 1) rest

mutual

def readValue : ℕ → List Char → Option (Json × List Char)
  | 0, _ => none
  | _ + 1, [] => none
  | n + 1, c :: rest =>
      if c = '"' then
        (readString (rest.length + 1) rest).map fun r => (.str (String.ofList r.1), r.2)
      else if c = '{' then
        match expect '}' (skipBlanks rest) with
        | some rest => some (.object .nil, rest)
        | none => (readMembers n .nil (skipBlanks rest)).map fun r => (.object r.1, r.2)
      else if c = '[' then
        match expect ']' (skipBlanks rest) with
        | some rest => some (.array .nil, rest)
        | none => (readItems n (skipBlanks rest)).map fun r => (.array r.1, r.2)
      else readScalar (c :: rest)

/-- Items up to the closing bracket; at least one. -/
def readItems : ℕ → List Char → Option (JsonItems × List Char)
  | 0, _ => none
  | n + 1, cs =>
      match readValue n cs with
      | none => none
      | some (v, rest) =>
          match expect ']' (skipBlanks rest) with
          | some rest => some (.cons v .nil, rest)
          | none =>
              match expect ',' (skipBlanks rest) with
              | some rest => (readItems n (skipBlanks rest)).map fun r => (.cons v r.1, r.2)
              | none => none

/-- Members up to the closing brace, added to those read before; at least one. -/
def readMembers : ℕ → JsonMembers → List Char → Option (JsonMembers × List Char)
  | 0, _, _ => none
  | n + 1, ms, cs =>
      match readKey cs with
      | none => none
      | some (key, rest) =>
          match expect ':' (skipBlanks rest) with
          | none => none
          | some rest =>
              match readValue n (skipBlanks rest) with
              | none => none
              | some (v, rest) =>
                  match expect '}' (skipBlanks rest) with
                  | some rest => some (ms.insert (String.ofList key) v, rest)
                  | none =>
                      match expect ',' (skipBlanks rest) with
                      | some rest =>
                          readMembers n (ms.insert (String.ofList key) v) (skipBlanks rest)
                      | none => none

end

/-- Read a whole text. -/
def loads (s : String) : Option Json :=
  match readValue (s.toList.length + 1) (skipBlanks s.toList) with
  | some (v, rest) => if skipBlanks rest = [] then some v else none
  | none => none

end Json

example : Json.loads " \x7b\"b\" : [1.50, -7],\n\"a\":\"\\u00e9\", \"b\":null\x7d" =
    some (.dict [("a", .str "é"), ("b", .null)]) := by
  decide +kernel
