/-
BLAKE3 itself, in its plain hashing mode with 32 bytes of output.

No result uses this module's function: every theorem holds for whatever function
the library computes.  It is here so that a concrete run can be evaluated with
the digests the node really computes, which is what a witness and a failing input
are checked on.  Words are naturals below `2 ^ 32`.
-/
import Snip.Basic

namespace Snip.Blake3Reference

/-- The initial chaining value. -/
def iv : List Nat :=
  [0x6A09E667, 0xBB67AE85, 0x3C6EF372, 0xA54FF53A,
   0x510E527F, 0x9B05688C, 0x1F83D9AB, 0x5BE0CD19]

/-- The order the message words are read in by the next round. -/
def messagePermutation : List Nat :=
  [2, 6, 3, 10, 7, 0, 4, 13, 1, 11, 12, 5, 9, 14, 15, 8]

def chunkStart : Nat := 1
def chunkEnd : Nat := 2
def parent : Nat := 4
def root : Nat := 8

def rotateRight (x n : Nat) : Nat :=
  ((x >>> n) ||| (x <<< (32 - n))) % 2 ^ 32

/-- The quarter round on words `a b c d` of the state. -/
def quarter (v : List Nat) (a b c d x y : Nat) : List Nat :=
  let va := (v.getD a 0 + v.getD b 0 + x) % 2 ^ 32
  let vd := rotateRight (v.getD d 0 ^^^ va) 16
  let vc := (v.getD c 0 + vd) % 2 ^ 32
  let vb := rotateRight (v.getD b 0 ^^^ vc) 12
  let va := (va + vb + y) % 2 ^ 32
  let vd := rotateRight (vd ^^^ va) 8
  let vc := (vc + vd) % 2 ^ 32
  let vb := rotateRight (vb ^^^ vc) 7
  (((v.set a va).set b vb).set c vc).set d vd

/-- One round: the four columns, then the four diagonals. -/
def round (v m : List Nat) : List Nat :=
  let w := fun i => m.getD i 0
  let v := quarter v 0 4 8 12 (w 0) (w 1)
  let v := quarter v 1 5 9 13 (w 2) (w 3)
  let v := quarter v 2 6 10 14 (w 4) (w 5)
  let v := quarter v 3 7 11 15 (w 6) (w 7)
  let v := quarter v 0 5 10 15 (w 8) (w 9)
  let v := quarter v 1 6 11 12 (w 10) (w 11)
  let v := quarter v 2 7 8 13 (w 12) (w 13)
  quarter v 3 4 9 14 (w 14) (w 15)

def rounds : Nat → List Nat → List Nat → List Nat
  | 0, v, _ => v
  | k + 1, v, m => rounds k (round v m) (messagePermutation.map fun i => m.getD i 0)

/-- A compression that has not been run yet: its flags depend on whether it is the last. -/
structure Node where
  cv : List Nat
  block : List Nat
  counter : Nat
  blockLen : Nat
  flags : Nat

/-- The eight words the compression of a node gives. -/
def Node.compress (n : Node) : List Nat :=
  let start := n.cv ++ iv.take 4 ++
    [n.counter % 2 ^ 32, n.counter / 2 ^ 32 % 2 ^ 32, n.blockLen, n.flags]
  let v := rounds 7 start n.block
  (List.range 8).map fun i => v.getD i 0 ^^^ v.getD (i + 8) 0

/-- Sixteen little-endian words, zero bytes behind the end. -/
def blockWords (b : Bytes) : List Nat :=
  let at' := fun i => (b.getD i 0).toNat
  (List.range 16).map fun i =>
    at' (4 * i) + 2 ^ 8 * at' (4 * i + 1) + 2 ^ 16 * at' (4 * i + 2) + 2 ^ 24 * at' (4 * i + 3)

/-- The node of one chunk: its 64-byte blocks are compressed in turn. -/
def chunkNode (counter : Nat) : Nat → List Nat → Nat → Bytes → Node
  | 0, cv, flags, b => ⟨cv, blockWords b, counter, b.length, flags ||| chunkEnd⟩
  | fuel + 1, cv, flags, b =>
      if b.length ≤ 64 then ⟨cv, blockWords b, counter, b.length, flags ||| chunkEnd⟩
      else
        chunkNode counter fuel
          (Node.compress ⟨cv, blockWords (b.take 64), counter, 64, flags⟩) 0 (b.drop 64)

/-- The node over a whole input; the left part is the largest power of two of chunks. -/
def treeNode : Nat → Nat → Bytes → Node
  | 0, counter, b => chunkNode counter 16 iv chunkStart b
  | fuel + 1, counter, b =>
      if b.length ≤ 1024 then chunkNode counter 16 iv chunkStart b
      else
        let left := 2 ^ Nat.log2 ((b.length - 1) / 1024)
        ⟨iv, (treeNode fuel counter (b.take (1024 * left))).compress ++
            (treeNode fuel (counter + left) (b.drop (1024 * left))).compress,
          0, 64, parent⟩

/-- The digest. -/
def digest (b : Bytes) : Hash :=
  let n := treeNode b.length 0 b
  let words := Node.compress { n with flags := n.flags ||| root }
  ⟨(List.range 32).map fun i => UInt8.ofNat (words.getD (i / 4) 0 >>> (8 * (i % 4))), by simp⟩

end Snip.Blake3Reference

/-- BLAKE3 as the library computes it. -/
@[reducible] def Snip.Blake3.reference : Snip.Blake3 := ⟨Snip.Blake3Reference.digest⟩
