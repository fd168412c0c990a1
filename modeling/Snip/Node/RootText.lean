/-
The two parsers of a root in a `manifest:<hex>` identifier, byte by byte.

The store has one for the requests it serves (`sum-store/src/serve.rs`, `hex_to_32`), the
node a copy of it for the access check (`sum-node/src/acl.rs`, `parse_hex_to_32`).  Both
cut the bytes of the text into pieces of two, read each piece as text of its own and hand
that to `u8::from_str_radix`.  What the rest of the development calls `hexTo32` works on
characters.
-/
import Snip.Node.Acl

namespace Snip

/-- `as_bytes().chunks(2)`. -/
def chunksOfTwo : Bytes → List Bytes
  | [] => []
  | [a] => [[a]]
  | a :: b :: rest => [a, b] :: chunksOfTwo rest

/-- `str::from_utf8` on a piece of at most two bytes: ASCII, or one character of two bytes. -/
def strFromUtf8 : Bytes → Option Str
  | [] => some []
  | [a] => if a.toNat < 128 then some [Char.ofNat a.toNat] else none
  | [a, b] =>
      if a.toNat < 128 ∧ b.toNat < 128 then some [Char.ofNat a.toNat, Char.ofNat b.toNat]
      else if 194 ≤ a.toNat ∧ a.toNat < 224 ∧ 128 ≤ b.toNat ∧ b.toNat < 192 then
        some [Char.ofNat ((a.toNat - 192) * 64 + (b.toNat - 128))]
      else none
  | _ => none

/-- The digits of `from_str_radix`, with its check for overflow. -/
def u8FromDigits : Nat → Str → Option UInt8
  | value, [] => some (UInt8.ofNat value)
  | value, c :: rest =>
      match hexValue c with
      | none => none
      | some d => if 16 * value + d < 256 then u8FromDigits (16 * value + d) rest else none

/-- `u8::from_str_radix(src, 16)`: a sign may come first, but `-` is no digit of a `u8`. -/
def u8FromStrRadix16 : Str → Option UInt8
  | [] => none
  | ['+'] => none
  | ['-'] => none
  | '+' :: digits => u8FromDigits 0 digits
  | digits => u8FromDigits 0 digits

/-- The loop of both parsers: 64 bytes, no upper-case letter, a byte from each piece. -/
def rootFromHex (hex : Str) : Option Hash :=
  if (utf8 hex).length ≠ 64 then none
  else if (utf8 hex).any fun b => 65 ≤ b.toNat && b.toNat ≤ 90 then none
  else
    ((chunksOfTwo (utf8 hex)).mapM fun chunk => (strFromUtf8 chunk).bind u8FromStrRadix16).bind
      Hash.ofBytes?

/-- `hex_to_32` of the store. -/
def Serve.hexTo32 (hex : Str) : Option Hash := rootFromHex hex

/-- `parse_hex_to_32` of the access check. -/
def parseHexTo32 (hex : Str) : Option Hash := rootFromHex hex

end Snip
