import Mathlib.Tactic
import Zkpow.Lib.ByteCodec

/-!
# SHA-256

The hash function of FIPS 180-4: padding (5.1.1), initial value (5.3.3), message schedule and
compression (6.2.2).  `getD_pad_of_lt` and `getD_pad_of_le` read the padded message byte by byte,
and `hash_eq` writes the hash as the digest after a known number of blocks.
-/

set_option autoImplicit false

namespace Sha256

open ByteCodec

/-! ## Functions and constants (4.1.2, 4.2.2, 5.3.3) -/

def rotr (x : UInt32) (n : UInt32) : UInt32 := x >>> n ||| x <<< (32 - n)

def ch (x y z : UInt32) : UInt32 := (x &&& y) ^^^ (~~~x &&& z)

def maj (x y z : UInt32) : UInt32 := (x &&& y) ^^^ (x &&& z) ^^^ (y &&& z)

def bigSigma0 (x : UInt32) : UInt32 := rotr x 2 ^^^ rotr x 13 ^^^ rotr x 22

def bigSigma1 (x : UInt32) : UInt32 := rotr x 6 ^^^ rotr x 11 ^^^ rotr x 25

def smallSigma0 (x : UInt32) : UInt32 := rotr x 7 ^^^ rotr x 18 ^^^ x >>> 3

def smallSigma1 (x : UInt32) : UInt32 := rotr x 17 ^^^ rotr x 19 ^^^ x >>> 10

def K : Vector UInt32 64 := #v[
  0x428a2f98, 0x71374491, 0xb5c0fbcf, 0xe9b5dba5, 0x3956c25b, 0x59f111f1, 0x923f82a4, 0xab1c5ed5,
  0xd807aa98, 0x12835b01, 0x243185be, 0x550c7dc3, 0x72be5d74, 0x80deb1fe, 0x9bdc06a7, 0xc19bf174,
  0xe49b69c1, 0xefbe4786, 0x0fc19dc6, 0x240ca1cc, 0x2de92c6f, 0x4a7484aa, 0x5cb0a9dc, 0x76f988da,
  0x983e5152, 0xa831c66d, 0xb00327c8, 0xbf597fc7, 0xc6e00bf3, 0xd5a79147, 0x06ca6351, 0x14292967,
  0x27b70a85, 0x2e1b2138, 0x4d2c6dfc, 0x53380d13, 0x650a7354, 0x766a0abb, 0x81c2c92e, 0x92722c85,
  0xa2bfe8a1, 0xa81a664b, 0xc24b8b70, 0xc76c51a3, 0xd192e819, 0xd6990624, 0xf40e3585, 0x106aa070,
  0x19a4c116, 0x1e376c08, 0x2748774c, 0x34b0bcb5, 0x391c0cb3, 0x4ed8aa4a, 0x5b9cca4f, 0x682e6ff3,
  0x748f82ee, 0x78a5636f, 0x84c87814, 0x8cc70208, 0x90befffa, 0xa4506ceb, 0xbef9a3f7, 0xc67178f2]

def H0 : Vector UInt32 8 := #v[
  0x6a09e667, 0xbb67ae85, 0x3c6ef372, 0xa54ff53a, 0x510e527f, 0x9b05688c, 0x1f83d9ab, 0x5be0cd19]

/-! ## Schedule and compression (6.2.2) -/

/-- The next schedule word, from the words so far, the last one first. -/
def nextWord (w : List UInt32) : UInt32 :=
  smallSigma1 (w.getD 1 0) + w.getD 6 0 + smallSigma0 (w.getD 14 0) + w.getD 15 0

/-- The message schedule `W_0 … W_63` of a block. -/
def schedule (m : Vector UInt32 16) : Vector UInt32 64 :=
  let w := (List.range 48).foldl (fun w _ => nextWord w :: w) m.toList.reverse
  Vector.ofFn fun t => w.getD (63 - t) 0

/-- The working variables. -/
structure Working where
  a : UInt32
  b : UInt32
  c : UInt32
  d : UInt32
  e : UInt32
  f : UInt32
  g : UInt32
  h : UInt32

/-- One round, with its schedule word and constant. -/
def round (v : Working) (wk : UInt32 × UInt32) : Working :=
  let t1 := v.h + bigSigma1 v.e + ch v.e v.f v.g + wk.2 + wk.1
  let t2 := bigSigma0 v.a + maj v.a v.b v.c
  ⟨t1 + t2, v.a, v.b, v.c, v.d + t1, v.e, v.f, v.g⟩

/-- The compression of one scheduled block into the hash value. -/
def compress (w : Vector UInt32 64) (h : Vector UInt32 8) : Vector UInt32 8 :=
  let v := (w.toList.zip K.toList).foldl round
    ⟨h.get 0, h.get 1, h.get 2, h.get 3, h.get 4, h.get 5, h.get 6, h.get 7⟩
  #v[h.get 0 + v.a, h.get 1 + v.b, h.get 2 + v.c, h.get 3 + v.d, h.get 4 + v.e, h.get 5 + v.f,
    h.get 6 + v.g, h.get 7 + v.h]

/-! ## Padding and parsing (5.1.1, 5.2.1) -/

/-- What is appended to a message of `len` bytes: a one bit, zeros, the length in bits. -/
def padding (len : Nat) : Bytes :=
  0x80 :: List.replicate ((119 - len % 64) % 64) 0 ++ (natLE 8 (8 * len)).reverse

def pad (data : Bytes) : Bytes := data ++ padding data.length

/-- The big-endian word at a byte offset. -/
def word (b : Bytes) (i : Nat) : UInt32 :=
  UInt32.ofNat ((b.getD i 0).toNat * 2 ^ 24 + (b.getD (i + 1) 0).toNat * 2 ^ 16 +
    (b.getD (i + 2) 0).toNat * 2 ^ 8 + (b.getD (i + 3) 0).toNat)

/-- Block `k` of a padded message. -/
def block (b : Bytes) (k : Nat) : Vector UInt32 16 :=
  let rest := b.drop (64 * k)
  Vector.ofFn fun t => word rest (4 * t)

/-- The hash value after the first `n` blocks. -/
def hashBlocks (b : Bytes) (n : Nat) : Vector UInt32 8 :=
  (List.range n).foldl (fun h k => compress (schedule (block b k)) h) H0

/-- The bytes of a hash value, each word most significant byte first. -/
def digest (h : Vector UInt32 8) : Bytes := h.toList.flatMap fun x => (natLE 4 x.toNat).reverse

/-- **SHA-256.** -/
def hash (data : Bytes) : Vector UInt8 32 :=
  (Codec.array 32).dec (digest (hashBlocks (pad data) ((pad data).length / 64)))

/-! ## Lemmas -/

theorem length_pad (data : Bytes) :
    (pad data).length = data.length + 1 + (119 - data.length % 64) % 64 + 8 := by
  simp [pad, padding]
  omega

theorem getD_pad_of_lt {data : Bytes} {i : Nat} (h : i < data.length) :
    (pad data).getD i 0 = data.getD i 0 := by
  simp [pad, List.getD_eq_getElem?_getD, List.getElem?_append_left h]

theorem getD_pad_of_le {data : Bytes} {i : Nat} (h : data.length ≤ i) :
    (pad data).getD i 0 = (padding data.length).getD (i - data.length) 0 := by
  simp [pad, List.getD_eq_getElem?_getD, List.getElem?_append_right h]

theorem getElem_block (b : Bytes) (k : Nat) {t : Nat} (ht : t < 16) :
    (block b k)[t] = word b (64 * k + 4 * t) := by
  simp [block, word, List.getD_eq_getElem?_getD, Nat.add_assoc]

theorem hashBlocks_succ (b : Bytes) (n : Nat) :
    hashBlocks b (n + 1) = compress (schedule (block b n)) (hashBlocks b n) := by
  rw [hashBlocks, List.range_succ, List.foldl_append]
  rfl

theorem hash_eq {data : Bytes} {n : Nat} (h : (pad data).length = 64 * n) :
    hash data = (Codec.array 32).dec (digest (hashBlocks (pad data) n)) := by
  rw [hash, h, Nat.mul_div_cancel_left n (by decide)]

/-- The empty message. -/
example : (hash []).toList = [0xe3, 0xb0, 0xc4, 0x42, 0x98, 0xfc, 0x1c, 0x14, 0x9a, 0xfb, 0xf4,
    0xc8, 0x99, 0x6f, 0xb9, 0x24, 0x27, 0xae, 0x41, 0xe4, 0x64, 0x9b, 0x93, 0x4c, 0xa4, 0x95,
    0x99, 0x1b, 0x78, 0x52, 0xb8, 0x55] := by decide +kernel

end Sha256
