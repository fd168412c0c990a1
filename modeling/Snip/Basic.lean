/-
The values the node computes with: bytes, digests, content identifiers and
manifests.

BLAKE3 comes from a library and is a parameter of the whole development.  Nothing
is assumed of it beyond being a fixed function into 32 bytes; in particular it is
*not* assumed injective.  Where a result needs two digests to come from one
string, the escape is a `Collision` inside a list of strings that the statement
spells out, never the bare existence of one.
-/
import Mathlib.Data.List.Basic
import Mathlib.Data.Nat.Digits.Defs

namespace Snip

/-- A byte string. -/
abbrev Bytes := List UInt8

/-- Text, by its characters. -/
abbrev Str := List Char

instance Str.lawfulBEq : LawfulBEq Str := inferInstance

/-- A libp2p peer, as the number its bytes spell. -/
abbrev PeerId := Nat

/-- A 32-byte value: a BLAKE3 digest, a Merkle root, a key. -/
structure Hash where
  bytes : Bytes
  size : bytes.length = 32
deriving DecidableEq

/-- `[b; 32]`. -/
def Hash.fill (b : UInt8) : Hash := ⟨List.replicate 32 b, by simp⟩

/-- `[0u8; 32]`. -/
def Hash.zero : Hash := Hash.fill 0

instance : Inhabited Hash := ⟨Hash.zero⟩

@[ext] theorem Hash.ext {a b : Hash} (h : a.bytes = b.bytes) : a = b := by
  cases a
  cases b
  simpa using h

/-- The library's hash function. -/
class Blake3 where
  hash : Bytes → Hash

/-- Two different strings of `S` have one digest. -/
def Collision [Blake3] (S : List Bytes) : Prop :=
  ∃ x ∈ S, ∃ y ∈ S, x ≠ y ∧ Blake3.hash x = Blake3.hash y

instance [Blake3] (S : List Bytes) : Decidable (Collision S) :=
  inferInstanceAs (Decidable (∃ x ∈ S, ∃ y ∈ S, x ≠ y ∧ Blake3.hash x = Blake3.hash y))

theorem Collision.mono [Blake3] {S T : List Bytes} (h : Collision S) (hST : S ⊆ T) :
    Collision T := by
  obtain ⟨x, hx, y, hy, hne, heq⟩ := h
  exact ⟨x, hST hx, y, hST hy, hne, heq⟩

/-! ### Hexadecimal -/

/-- The digit `d < 16` as `{:x}` prints it. -/
def hexDigit (d : Nat) : Char :=
  if d < 10 then Char.ofNat (48 + d) else Char.ofNat (87 + d)

/-- `format!("{b:02x}")` over all bytes. -/
def hexEncode (b : Bytes) : Str :=
  b.flatMap fun x => [hexDigit (x.toNat / 16), hexDigit (x.toNat % 16)]

/-- `char::to_digit(16)`. -/
def hexValue (c : Char) : Option Nat :=
  if 48 ≤ c.toNat ∧ c.toNat ≤ 57 then some (c.toNat - 48)
  else if 97 ≤ c.toNat ∧ c.toNat ≤ 102 then some (c.toNat - 87)
  else if 65 ≤ c.toNat ∧ c.toNat ≤ 70 then some (c.toNat - 55)
  else none

/-- `u8::from_str_radix(s, 16)` on two characters; a leading `+` is a sign. -/
def byteFromHex (a b : Char) : Option UInt8 :=
  if a = '+' then (hexValue b).map UInt8.ofNat
  else do
    let x ← hexValue a
    let y ← hexValue b
    return UInt8.ofNat (16 * x + y)

/-- The bytes of a text of hex pairs. -/
def hexPairs : Str → Option Bytes
  | [] => some []
  | [_] => none
  | a :: b :: rest => do
      let x ← byteFromHex a b
      let xs ← hexPairs rest
      return x :: xs

/-- A 32-byte value if the string has that length. -/
def Hash.ofBytes? (b : Bytes) : Option Hash :=
  if h : b.length = 32 then some ⟨b, h⟩ else none

/-- `hex_to_32`: 64 characters, none of them an upper-case letter. -/
def hexTo32 (hex : Str) : Option Hash :=
  if hex.length ≠ 64 then none
  else if hex.any fun c => 65 ≤ c.toNat && c.toNat ≤ 90 then none
  else (hexPairs hex).bind Hash.ofBytes?

/-! ### Content identifiers -/

/-- The base-32 digit `d < 32` of the lower-case RFC alphabet `a..z2..7`. -/
def base32Digit (d : Nat) : Char :=
  if d < 26 then Char.ofNat (97 + d) else Char.ofNat (24 + d)

/-- The bytes as one big-endian number. -/
def beValue (b : Bytes) : Nat :=
  b.foldl (fun n x => n * 256 + x.toNat) 0

/-- The `k` lowest base-32 digits of `v`, highest first. -/
def base32Digits : Nat → Nat → Str
  | 0, _ => []
  | k + 1, v => base32Digits k (v / 32) ++ [base32Digit (v % 32)]

/-- Unpadded lower-case base 32: zero bits fill the last digit. -/
def base32Lower (b : Bytes) : Str :=
  let k := (8 * b.length + 4) / 5
  base32Digits k (beValue b * 2 ^ (5 * k - 8 * b.length))

/--
`cid_from_blake3_hash`: version 1, raw codec 0x55, a 32-byte multihash of code 0x1e,
printed with the multibase prefix `b`.
-/
def cidFromBlake3Hash (h : Hash) : Str :=
  'b' :: base32Lower ([0x01, 0x55, 0x1e, 0x20] ++ h.bytes)

/-- `cid_from_data`. -/
def cidFromData [Blake3] (data : Bytes) : Str :=
  cidFromBlake3Hash (Blake3.hash data)

/-! ### Manifests -/

/-- `CHUNK_SIZE`, one MiB. -/
def chunkSize : Nat := 1048576

/-- One chunk of a file as its manifest describes it. -/
structure ChunkDescriptor where
  chunkIndex : Nat
  offset : Nat
  size : Nat
  blake3Hash : Hash
  cid : Str
  plaintextBlake3Hash : Option Hash
deriving DecidableEq

/-- What a file is made of. -/
structure DataManifest where
  fileName : Str
  fileHash : Hash
  totalSizeBytes : Nat
  chunkCount : Nat
  merkleRoot : Hash
  chunks : List ChunkDescriptor
deriving DecidableEq

/-- The leaves of the manifest's Merkle tree. -/
def DataManifest.leaves (m : DataManifest) : List Hash :=
  m.chunks.map ChunkDescriptor.blake3Hash

end Snip
