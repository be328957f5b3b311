import Mathlib.Data.Nat.Bitwise
import Mathlib.Data.List.Basic

/-!
# SHA-256

The digest of a text: its UTF-8 bytes are padded to blocks of 512 bits, and every
block passes through sixty-four rounds over eight words of 32 bits. Words are
natural numbers below `2^32`. A window of sixteen words stands for the message
schedule, so that each round reads its word from the front and appends one at
the back.
-/

namespace Sha256

def wordModulus : ℕ := 4294967296

def addWords (a b : ℕ) : ℕ := (a + b) % wordModulus

def rotateRight (x n : ℕ) : ℕ := ((x >>> n) ||| (x <<< (32 - n))) % wordModulus

def choose (x y z : ℕ) : ℕ := (x &&& y) ^^^ ((x ^^^ 4294967295) &&& z)

def majority (x y z : ℕ) : ℕ := (x &&& y) ^^^ (x &&& z) ^^^ (y &&& z)

def bigSigma0 (x : ℕ) : ℕ := rotateRight x 2 ^^^ rotateRight x 13 ^^^ rotateRight x 22
def bigSigma1 (x : ℕ) : ℕ := rotateRight x 6 ^^^ rotateRight x 11 ^^^ rotateRight x 25
def smallSigma0 (x : ℕ) : ℕ := rotateRight x 7 ^^^ rotateRight x 18 ^^^ (x >>> 3)
def smallSigma1 (x : ℕ) : ℕ := rotateRight x 17 ^^^ rotateRight x 19 ^^^ (x >>> 10)

structure State where
  a : ℕ
  b : ℕ
  c : ℕ
  d : ℕ
  e : ℕ
  f : ℕ
  g : ℕ
  h : ℕ
deriving DecidableEq

def initial : State :=
  ⟨0x6a09e667, 0xbb67ae85, 0x3c6ef372, 0xa54ff53a, 0x510e527f, 0x9b05688c, 0x1f83d9ab, 0x5be0cd19⟩

def roundConstants : List ℕ :=
  [0x428a2f98, 0x71374491, 0xb5c0fbcf, 0xe9b5dba5, 0x3956c25b, 0x59f111f1, 0x923f82a4, 0xab1c5ed5,
   0xd807aa98, 0x12835b01, 0x243185be, 0x550c7dc3, 0x72be5d74, 0x80deb1fe, 0x9bdc06a7, 0xc19bf174,
   0xe49b69c1, 0xefbe4786, 0x0fc19dc6, 0x240ca1cc, 0x2de92c6f, 0x4a7484aa, 0x5cb0a9dc, 0x76f988da,
   0x983e5152, 0xa831c66d, 0xb00327c8, 0xbf597fc7, 0xc6e00bf3, 0xd5a79147, 0x06ca6351, 0x14292967,
   0x27b70a85, 0x2e1b2138, 0x4d2c6dfc, 0x53380d13, 0x650a7354, 0x766a0abb, 0x81c2c92e, 0x92722c85,
   0xa2bfe8a1, 0xa81a664b, 0xc24b8b70, 0xc76c51a3, 0xd192e819, 0xd6990624, 0xf40e3585, 0x106aa070,
   0x19a4c116, 0x1e376c08, 0x2748774c, 0x34b0bcb5, 0x391c0cb3, 0x4ed8aa4a, 0x5b9cca4f, 0x682e6ff3,
   0x748f82ee, 0x78a5636f, 0x84c87814, 0x8cc70208, 0x90befffa, 0xa4506ceb, 0xbef9a3f7, 0xc67178f2]

def step (s : State) (k w : ℕ) : State :=
  let t1 := addWords (addWords (addWords s.h (bigSigma1 s.e)) (addWords (choose s.e s.f s.g) k)) w
  let t2 := addWords (bigSigma0 s.a) (majority s.a s.b s.c)
  ⟨addWords t1 t2, s.a, s.b, s.c, addWords s.d t1, s.e, s.f, s.g⟩

/-- The next word of the message schedule, from a window of sixteen. -/
def nextWord : List ℕ → ℕ
  | [w0, w1, _, _, _, _, _, _, _, w9, _, _, _, _, w14, _] =>
      addWords (addWords (smallSigma1 w14) w9) (addWords (smallSigma0 w1) w0)
  | _ => 0

def rounds : List ℕ → State → List ℕ → State
  | [], s, _ => s
  | k :: ks, s, window => rounds ks (step s k window.headI) (window.tail ++ [nextWord window])

def compress (s : State) (block : List ℕ) : State :=
  let t := rounds roundConstants s block
  ⟨addWords s.a t.a, addWords s.b t.b, addWords s.c t.c, addWords s.d t.d,
    addWords s.e t.e, addWords s.f t.f, addWords s.g t.g, addWords s.h t.h⟩

/-- Big-endian words of four bytes. -/
def toWords : List ℕ → List ℕ
  | b0 :: b1 :: b2 :: b3 :: rest => (((b0 * 256 + b1) * 256 + b2) * 256 + b3) :: toWords rest
  | _ => []

/-- The padding of a message of `n` bytes. -/
def padding (n : ℕ) : List ℕ :=
  0x80 :: List.replicate ((119 - n % 64) % 64) 0 ++
    [56, 48, 40, 32, 24, 16, 8, 0].map fun shift => (8 * n) >>> shift % 256

/-- Fold the compression over blocks of sixteen words. -/
def compressAll : ℕ → State → List ℕ → State
  | 0, s, _ => s
  | n + 1, s, words => compressAll n (compress s (words.take 16)) (words.drop 16)

def digestBytes (bytes : List ℕ) : State :=
  let words := toWords (bytes ++ padding bytes.length)
  compressAll (words.length / 16) initial words

def utf8 (c : Char) : List ℕ :=
  let n := c.toNat
  if n < 0x80 then [n]
  else if n < 0x800 then [0xc0 + n / 64, 0x80 + n % 64]
  else if n < 0x10000 then [0xe0 + n / 4096, 0x80 + n / 64 % 64, 0x80 + n % 64]
  else [0xf0 + n / 262144, 0x80 + n / 4096 % 64, 0x80 + n / 64 % 64, 0x80 + n % 64]

def hexDigit (n : ℕ) : Char := if n < 10 then Char.ofNat (48 + n) else Char.ofNat (87 + n)

def hexWord (w : ℕ) : List Char :=
  [28, 24, 20, 16, 12, 8, 4, 0].map fun shift => hexDigit (w >>> shift % 16)

def hexState (s : State) : List Char :=
  [s.a, s.b, s.c, s.d, s.e, s.f, s.g, s.h].flatMap hexWord

def hexDigest (text : List Char) : String := String.ofList (hexState (digestBytes (text.flatMap utf8)))

def isHexDigit (c : Char) : Bool := ('0' ≤ c && c ≤ '9') || ('a' ≤ c && c ≤ 'f')

theorem isHexDigit_hexDigit : ∀ n < 16, isHexDigit (hexDigit n) = true := by decide

def isHexDigest (s : String) : Bool := s.toList.length == 64 && s.toList.all isHexDigit

theorem all_isHexDigit_hexWord (w : ℕ) : (hexWord w).all isHexDigit = true := by
  unfold hexWord
  rw [List.all_map, List.all_eq_true]
  intro shift _
  exact isHexDigit_hexDigit _ (Nat.mod_lt _ (by decide))

theorem isHexDigest_hexDigest (text : List Char) : isHexDigest (hexDigest text) = true := by
  unfold isHexDigest hexDigest
  generalize digestBytes (text.flatMap utf8) = s
  rw [String.toList_ofList, Bool.and_eq_true]
  constructor
  · simp [hexState, hexWord]
  · simp [hexState, all_isHexDigit_hexWord]

example : hexDigest "abc".toList =
    "ba7816bf8f01cfea414140de5dae2223b00361a396177a9cb410ff61f20015ad" := by
  decide +kernel

end Sha256
