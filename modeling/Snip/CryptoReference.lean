/-
HKDF-SHA256, ChaCha20-Poly1305 and X25519 themselves.

As with BLAKE3, results hold for whatever the libraries compute; these are here so
that a concrete file can be followed with the keys and ciphertexts the node really
computes.  Words are naturals below `2 ^ 32`, field elements naturals below the
prime.  The cipher's limit on the length of a message is left out.
-/
import Snip.Crypto

namespace Snip.CryptoReference

/-- The little-endian number the bytes spell. -/
def leValue (b : Bytes) : Nat := beValue b.reverse

/-- The `k` lowest bytes of `n`, lowest first. -/
def leBytes (k n : Nat) : Bytes := (beBytes k n).reverse

/-! ### HKDF-SHA256 -/

def sha256Init : List Nat :=
  [0x6a09e667, 0xbb67ae85, 0x3c6ef372, 0xa54ff53a,
   0x510e527f, 0x9b05688c, 0x1f83d9ab, 0x5be0cd19]

def sha256Constants : List Nat :=
  [0x428a2f98, 0x71374491, 0xb5c0fbcf, 0xe9b5dba5, 0x3956c25b, 0x59f111f1, 0x923f82a4, 0xab1c5ed5,
   0xd807aa98, 0x12835b01, 0x243185be, 0x550c7dc3, 0x72be5d74, 0x80deb1fe, 0x9bdc06a7, 0xc19bf174,
   0xe49b69c1, 0xefbe4786, 0x0fc19dc6, 0x240ca1cc, 0x2de92c6f, 0x4a7484aa, 0x5cb0a9dc, 0x76f988da,
   0x983e5152, 0xa831c66d, 0xb00327c8, 0xbf597fc7, 0xc6e00bf3, 0xd5a79147, 0x06ca6351, 0x14292967,
   0x27b70a85, 0x2e1b2138, 0x4d2c6dfc, 0x53380d13, 0x650a7354, 0x766a0abb, 0x81c2c92e, 0x92722c85,
   0xa2bfe8a1, 0xa81a664b, 0xc24b8b70, 0xc76c51a3, 0xd192e819, 0xd6990624, 0xf40e3585, 0x106aa070,
   0x19a4c116, 0x1e376c08, 0x2748774c, 0x34b0bcb5, 0x391c0cb3, 0x4ed8aa4a, 0x5b9cca4f, 0x682e6ff3,
   0x748f82ee, 0x78a5636f, 0x84c87814, 0x8cc70208, 0x90befffa, 0xa4506ceb, 0xbef9a3f7, 0xc67178f2]

def rotateRight (x n : Nat) : Nat := ((x >>> n) ||| (x <<< (32 - n))) % 2 ^ 32

/-- The next words of the message schedule; `w` holds the last sixteen, the latest first. -/
def scheduleLoop : Nat → List Nat → List Nat → List Nat
  | 0, _, out => out.reverse
  | k + 1, w, out =>
      let w15 := w.getD 14 0
      let w2 := w.getD 1 0
      let s0 := rotateRight w15 7 ^^^ rotateRight w15 18 ^^^ (w15 >>> 3)
      let s1 := rotateRight w2 17 ^^^ rotateRight w2 19 ^^^ (w2 >>> 10)
      let next := (w.getD 15 0 + s0 + w.getD 6 0 + s1) % 2 ^ 32
      scheduleLoop k ((next :: w).take 16) (next :: out)

/-- One round on the eight working words. -/
def sha256Round (v : List Nat) (k w : Nat) : List Nat :=
  let a := v.getD 0 0
  let e := v.getD 4 0
  let s1 := rotateRight e 6 ^^^ rotateRight e 11 ^^^ rotateRight e 25
  let ch := (e &&& v.getD 5 0) ^^^ ((2 ^ 32 - 1 - e) &&& v.getD 6 0)
  let t1 := v.getD 7 0 + s1 + ch + k + w
  let s0 := rotateRight a 2 ^^^ rotateRight a 13 ^^^ rotateRight a 22
  let maj := (a &&& v.getD 1 0) ^^^ (a &&& v.getD 2 0) ^^^ (v.getD 1 0 &&& v.getD 2 0)
  [(t1 + s0 + maj) % 2 ^ 32, a, v.getD 1 0, v.getD 2 0,
   (v.getD 3 0 + t1) % 2 ^ 32, e, v.getD 5 0, v.getD 6 0]

/-- One 64-byte block. -/
def sha256Block (h : List Nat) (block : Bytes) : List Nat :=
  let words := (List.range 16).map fun i => beValue ((block.drop (4 * i)).take 4)
  let schedule := words ++ scheduleLoop 48 words.reverse []
  let v := (sha256Constants.zip schedule).foldl (fun v kw => sha256Round v kw.1 kw.2) h
  List.zipWith (fun x y => (x + y) % 2 ^ 32) h v

def sha256 (msg : Bytes) : Bytes :=
  let zeros := List.replicate ((119 - msg.length % 64) % 64) 0
  let padded := msg ++ [0x80] ++ zeros ++ beBytes 8 (8 * msg.length)
  let h := (List.range (padded.length / 64)).foldl
    (fun h i => sha256Block h ((padded.drop (64 * i)).take 64)) sha256Init
  h.flatMap (beBytes 4)

def hmac (key msg : Bytes) : Bytes :=
  let short := if 64 < key.length then sha256 key else key
  let block := short ++ List.replicate (64 - short.length) 0
  let inner := sha256 (block.map (· ^^^ 0x36) ++ msg)
  sha256 (block.map (· ^^^ 0x5c) ++ inner)

/-- The blocks of `expand`, from number `i` on. -/
def hkdfBlocks (prk info : Bytes) : Nat → Nat → Bytes → Bytes
  | 0, _, _ => []
  | k + 1, i, last =>
      let t := hmac prk (last ++ info ++ [UInt8.ofNat i])
      t ++ hkdfBlocks prk info k (i + 1) t

def hkdf (salt ikm info : Bytes) (outLen : Nat) : Bytes :=
  (hkdfBlocks (hmac salt ikm) info ((outLen + 31) / 32) 1 []).take outLen

/-! ### ChaCha20-Poly1305 -/

def rotateLeft (x n : Nat) : Nat := rotateRight x (32 - n)

def chachaQuarter (v : List Nat) (a b c d : Nat) : List Nat :=
  let va := (v.getD a 0 + v.getD b 0) % 2 ^ 32
  let vd := rotateLeft (v.getD d 0 ^^^ va) 16
  let vc := (v.getD c 0 + vd) % 2 ^ 32
  let vb := rotateLeft (v.getD b 0 ^^^ vc) 12
  let va := (va + vb) % 2 ^ 32
  let vd := rotateLeft (vd ^^^ va) 8
  let vc := (vc + vd) % 2 ^ 32
  let vb := rotateLeft (vb ^^^ vc) 7
  (((v.set a va).set b vb).set c vc).set d vd

/-- The columns, then the diagonals. -/
def chachaDoubleRound (v : List Nat) : List Nat :=
  let v := chachaQuarter v 0 4 8 12
  let v := chachaQuarter v 1 5 9 13
  let v := chachaQuarter v 2 6 10 14
  let v := chachaQuarter v 3 7 11 15
  let v := chachaQuarter v 0 5 10 15
  let v := chachaQuarter v 1 6 11 12
  let v := chachaQuarter v 2 7 8 13
  chachaQuarter v 3 4 9 14

/-- The words of a string, little-endian. -/
def leWords (n : Nat) (b : Bytes) : List Nat :=
  (List.range n).map fun i => leValue ((b.drop (4 * i)).take 4)

def chachaBlock (key nonce : Bytes) (counter : Nat) : Bytes :=
  let start := [0x61707865, 0x3320646e, 0x79622d32, 0x6b206574] ++ leWords 8 key ++
    [counter % 2 ^ 32] ++ leWords 3 nonce
  let v := (List.range 10).foldl (fun v _ => chachaDoubleRound v) start
  (List.range 16).flatMap fun i => leBytes 4 ((v.getD i 0 + start.getD i 0) % 2 ^ 32)

/-- The keystream from block 1 on, long enough for `n` bytes. -/
def keystream (key nonce : Bytes) (n : Nat) : Bytes :=
  (List.range ((n + 63) / 64)).flatMap fun i => chachaBlock key nonce (i + 1)

def chacha20 (key nonce msg : Bytes) : Bytes :=
  List.zipWith (· ^^^ ·) msg (keystream key nonce msg.length)

def pad16 (b : Bytes) : Bytes := b ++ List.replicate ((16 - b.length % 16) % 16) 0

def poly1305 (key msg : Bytes) : Bytes :=
  let r := leValue (key.take 16) &&& 0x0ffffffc0ffffffc0ffffffc0fffffff
  let s := leValue ((key.drop 16).take 16)
  let acc := (List.range ((msg.length + 15) / 16)).foldl
    (fun acc i => (acc + leValue ((msg.drop (16 * i)).take 16 ++ [1])) * r % (2 ^ 130 - 5)) 0
  leBytes 16 ((acc + s) % 2 ^ 128)

def tag (key nonce aad ct : Bytes) : Bytes :=
  poly1305 ((chachaBlock key nonce 0).take 32)
    (pad16 aad ++ pad16 ct ++ leBytes 8 aad.length ++ leBytes 8 ct.length)

def encrypt (key nonce aad msg : Bytes) : Option Bytes :=
  let ct := chacha20 key nonce msg
  some (ct ++ tag key nonce aad ct)

def decrypt (key nonce aad msg : Bytes) : Option Bytes :=
  if msg.length < tagSize then none
  else
    let ct := msg.take (msg.length - tagSize)
    if msg.drop (msg.length - tagSize) = tag key nonce aad ct then some (chacha20 key nonce ct)
    else none

/-! ### X25519 -/

def prime : Nat := 2 ^ 255 - 19

/-- `a ^ e` by squaring; `e` has at most `k` bits. -/
def powMod : Nat → Nat → Nat → Nat → Nat
  | 0, _, _, acc => acc
  | k + 1, a, e, acc =>
      powMod k (a * a % prime) (e / 2) (if e % 2 = 1 then acc * a % prime else acc)

def sub (a b : Nat) : Nat := (a + prime - b) % prime

/-- The Montgomery ladder over the bits of `scalar` from bit `k - 1` down. -/
def ladder (u scalar : Nat) : Nat → Nat → Nat → Nat → Nat → Nat × Nat
  | 0, x2, z2, _, _ => (x2, z2)
  | k + 1, x2, z2, x3, z3 =>
      -- A set bit swaps the two points before the step and after it.
      let bit := scalar.testBit k
      let px := if bit then x3 else x2
      let pz := if bit then z3 else z2
      let qx := if bit then x2 else x3
      let qz := if bit then z2 else z3
      let a := (px + pz) % prime
      let b := sub px pz
      let aa := a * a % prime
      let bb := b * b % prime
      let e := sub aa bb
      let da := sub qx qz * a % prime
      let cb := (qx + qz) * b % prime
      let sx := (da + cb) * (da + cb) % prime
      let sz := u * (sub da cb * sub da cb % prime) % prime
      let dx := aa * bb % prime
      let dz := e * (aa + 121665 * e) % prime
      if bit then ladder u scalar k sx sz dx dz else ladder u scalar k dx dz sx sz

/-- The scalar a secret stands for. -/
def clamp (secret : Hash) : Nat :=
  let n := leValue secret.bytes
  n % 2 ^ 254 / 8 * 8 + 2 ^ 254

/-- The bytes of a field element. -/
def encodeField (n : Nat) : Hash := ⟨leBytes 32 n, by simp [leBytes, beBytes]⟩

/-- The quotient of the coordinates the ladder ends with. -/
def affine (q : Nat × Nat) : Nat := q.1 * powMod 255 q.2 (prime - 2) 1 % prime

def x25519 (secret : Hash) (u : Nat) : Hash :=
  encodeField (affine (ladder (u % 2 ^ 255 % prime) (clamp secret) 255 1 0
    (u % 2 ^ 255 % prime) 1))

def publicKey (secret : Hash) : Hash := x25519 secret 9

def diffieHellman (secret theirPublic : Hash) : Hash := x25519 secret (leValue theirPublic.bytes)

end Snip.CryptoReference

/-- The libraries' functions as they compute. -/
@[reducible] def Snip.CryptoLib.reference : Snip.CryptoLib where
  hkdf := Snip.CryptoReference.hkdf
  encrypt := Snip.CryptoReference.encrypt
  decrypt := Snip.CryptoReference.decrypt
  publicKey := Snip.CryptoReference.publicKey
  diffieHellman := Snip.CryptoReference.diffieHellman
