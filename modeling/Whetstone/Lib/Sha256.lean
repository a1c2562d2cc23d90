import Mathlib.Data.List.Basic

/-! SHA-256 over bytes. Words are natural numbers below `2 ^ 32`, bytes below `2 ^ 8`; every
sum is reduced. -/
namespace Whetstone.Lib.Sha256

def word : Nat := 4294967296

def rotr (x n : Nat) : Nat := (x >>> n) ||| ((x <<< (32 - n)) % word)

def choose (x y z : Nat) : Nat := (x &&& y) ^^^ ((word - 1 - x) &&& z)

def majority (x y z : Nat) : Nat := (x &&& y) ^^^ (x &&& z) ^^^ (y &&& z)

def bigSigma0 (x : Nat) : Nat := rotr x 2 ^^^ rotr x 13 ^^^ rotr x 22
def bigSigma1 (x : Nat) : Nat := rotr x 6 ^^^ rotr x 11 ^^^ rotr x 25
def smallSigma0 (x : Nat) : Nat := rotr x 7 ^^^ rotr x 18 ^^^ (x >>> 3)
def smallSigma1 (x : Nat) : Nat := rotr x 17 ^^^ rotr x 19 ^^^ (x >>> 10)

def roundConstants : List Nat :=
  [0x428a2f98, 0x71374491, 0xb5c0fbcf, 0xe9b5dba5, 0x3956c25b, 0x59f111f1, 0x923f82a4,
    0xab1c5ed5, 0xd807aa98, 0x12835b01, 0x243185be, 0x550c7dc3, 0x72be5d74, 0x80deb1fe,
    0x9bdc06a7, 0xc19bf174, 0xe49b69c1, 0xefbe4786, 0x0fc19dc6, 0x240ca1cc, 0x2de92c6f,
    0x4a7484aa, 0x5cb0a9dc, 0x76f988da, 0x983e5152, 0xa831c66d, 0xb00327c8, 0xbf597fc7,
    0xc6e00bf3, 0xd5a79147, 0x06ca6351, 0x14292967, 0x27b70a85, 0x2e1b2138, 0x4d2c6dfc,
    0x53380d13, 0x650a7354, 0x766a0abb, 0x81c2c92e, 0x92722c85, 0xa2bfe8a1, 0xa81a664b,
    0xc24b8b70, 0xc76c51a3, 0xd192e819, 0xd6990624, 0xf40e3585, 0x106aa070, 0x19a4c116,
    0x1e376c08, 0x2748774c, 0x34b0bcb5, 0x391c0cb3, 0x4ed8aa4a, 0x5b9cca4f, 0x682e6ff3,
    0x748f82ee, 0x78a5636f, 0x84c87814, 0x8cc70208, 0x90befffa, 0xa4506ceb, 0xbef9a3f7,
    0xc67178f2]

structure Digest where
  a : Nat
  b : Nat
  c : Nat
  d : Nat
  e : Nat
  f : Nat
  g : Nat
  h : Nat
deriving DecidableEq

def initial : Digest :=
  ⟨0x6a09e667, 0xbb67ae85, 0x3c6ef372, 0xa54ff53a, 0x510e527f, 0x9b05688c, 0x1f83d9ab,
    0x5be0cd19⟩

def round (s : Digest) (k w : Nat) : Digest :=
  let t1 := s.h + bigSigma1 s.e + choose s.e s.f s.g + k + w
  let t2 := bigSigma0 s.a + majority s.a s.b s.c
  ⟨(t1 + t2) % word, s.a, s.b, s.c, (s.d + t1) % word, s.e, s.f, s.g⟩

/- The sixteen latest schedule words, oldest first. -/
def nextWord (window : List Nat) : Nat :=
  (smallSigma1 (window.getD 14 0) + window.getD 9 0 + smallSigma0 (window.getD 1 0) +
    window.getD 0 0) % word

def rounds : List Nat → List Nat → Digest → Digest
  | [], _, s => s
  | k :: constants, window, s =>
    rounds constants (window.tail ++ [nextWord window]) (round s k (window.headD 0))

def compress (s : Digest) (block : List Nat) : Digest :=
  let t := rounds roundConstants block s
  ⟨(s.a + t.a) % word, (s.b + t.b) % word, (s.c + t.c) % word, (s.d + t.d) % word,
    (s.e + t.e) % word, (s.f + t.f) % word, (s.g + t.g) % word, (s.h + t.h) % word⟩

def bigEndian (bytes : List Nat) : Nat := bytes.foldl (fun n b => n * 256 + b) 0

/- The bytes of a number, most significant first. -/
def toBytes : Nat → Nat → List Nat
  | 0, _ => []
  | count + 1, n => toBytes count (n / 256) ++ [n % 256]

def pad (message : List Nat) : List Nat :=
  [message, [128], List.replicate ((119 - message.length % 64) % 64) 0,
    toBytes 8 (message.length * 8)].flatten

def words : List Nat → List Nat
  | a :: b :: c :: d :: rest => bigEndian [a, b, c, d] :: words rest
  | _ => []

def blocks : Nat → List Nat → List (List Nat)
  | 0, _ => []
  | count + 1, ws => ws.take 16 :: blocks count (ws.drop 16)

def digestBytes (s : Digest) : List Nat :=
  ([s.a, s.b, s.c, s.d, s.e, s.f, s.g, s.h].map (toBytes 4)).flatten

def sha256 (message : List Nat) : List Nat :=
  let ws := words (pad message)
  digestBytes ((blocks (ws.length / 16) ws).foldl compress initial)

/- The digest of "abc". -/
example : bigEndian (sha256 [97, 98, 99]) =
    0xba7816bf8f01cfea414140de5dae2223b00361a396177a9cb410ff61f20015ad := by
  decide +kernel

/-! ### Hexadecimal digests -/

def hexdigest (message : List Nat) : String :=
  String.ofList ((sha256 message).flatMap fun byte =>
    [Nat.digitChar (byte / 16), Nat.digitChar (byte % 16)])

theorem length_toBytes (count n : Nat) : (toBytes count n).length = count := by
  induction count generalizing n with
  | zero => rfl
  | succ count ih => simp [toBytes, ih]

theorem lt_of_mem_toBytes {count n byte : Nat} (h : byte ∈ toBytes count n) : byte < 256 := by
  induction count generalizing n with
  | zero => cases h
  | succ count ih =>
    rw [toBytes, List.mem_append, List.mem_singleton] at h
    cases h with
    | inl h => exact ih h
    | inr h => omega

theorem length_sha256 (message : List Nat) : (sha256 message).length = 32 := by
  simp [sha256, digestBytes, length_toBytes]

theorem lt_of_mem_sha256 {message : List Nat} {byte : Nat} (h : byte ∈ sha256 message) :
    byte < 256 := by
  unfold sha256 digestBytes at h
  obtain ⟨bytes,hbytes,hmem⟩ := List.mem_flatten.mp h
  obtain ⟨word,_,rfl⟩ := List.mem_map.mp hbytes
  exact lt_of_mem_toBytes hmem

def isLowerHex (c : Char) : Bool := c.isDigit || ('a' ≤ c && c ≤ 'f')

theorem isLowerHex_digitChar {n : Nat} (h : n < 16) : isLowerHex (Nat.digitChar n) = true := by
  revert h n
  decide

theorem hexdigest_hex (message : List Nat) : (hexdigest message).toList.length = 64 ∧
    ∀ c ∈ (hexdigest message).toList, isLowerHex c = true := by
  unfold hexdigest
  rw [String.toList_ofList]
  constructor
  · simp [List.length_flatMap, length_sha256]
  · intro c hc
    obtain ⟨byte,hbyte,hc⟩ := List.mem_flatMap.mp hc
    have hlt := lt_of_mem_sha256 hbyte
    simp only [List.mem_cons, List.not_mem_nil, or_false] at hc
    cases hc with
    | inl hc =>
      rw [hc]
      exact isLowerHex_digitChar (by omega)
    | inr hc =>
      rw [hc]
      exact isLowerHex_digitChar (by omega)

end Whetstone.Lib.Sha256
