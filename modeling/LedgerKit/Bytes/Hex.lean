import LedgerKit.Bytes.Basic
import LedgerKit.Text.Quoted

/-!
# Hexadecimal

Bytes are written as two lower-case digits each (`Hex.encode`) and read back from digits of either
case (`Hex.decode`).  Reading looks at the bytes of the text, so a character outside ASCII counts
for as many digits as it has bytes, and the fault it is reported by is its first byte.
-/

namespace LedgerKit

namespace Hex

/-- The lower-case digit of a number below 16. -/
def digit (n : Nat) : Char := "0123456789abcdef".toList.getD n '0'

/-- The two digits of a byte. -/
def encodeByte (b : UInt8) : List Char := [digit (b.toNat / 16), digit (b.toNat % 16)]

/-- The digits of some bytes. -/
def encodeChars (bs : Bytes) : List Char := bs.flatMap encodeByte

/-- The lower-case hexadecimal text of some bytes. -/
def encode (bs : Bytes) : String := String.ofList (encodeChars bs)

/-- The value of a digit, of either case, given as its ASCII byte. -/
def digitValue? (b : UInt8) : Option Nat :=
  let n := b.toNat
  if 48 ≤ n ∧ n ≤ 57 then some (n - 48)
  else if 97 ≤ n ∧ n ≤ 102 then some (n - 87)
  else if 65 ≤ n ∧ n ≤ 70 then some (n - 55)
  else none

/-- Why a text is not hexadecimal. -/
inductive Error where
  /-- The text has an odd number of bytes. -/
  | oddLength
  /-- The byte at this index is no digit. -/
  | invalidByte (byte : UInt8) (index : Nat)
deriving DecidableEq, Repr

/-- Reads pairs of digits, the first of them standing at `index`. -/
def decodeFrom (index : Nat) : Bytes → Except Error Bytes
  | [] => .ok []
  | [_] => .error .oddLength
  | a :: b :: rest =>
    match digitValue? a, digitValue? b with
    | none, _ => .error (.invalidByte a index)
    | some _, none => .error (.invalidByte b (index + 1))
    | some x, some y => (decodeFrom (index + 2) rest).map (UInt8.ofNat (16 * x + y) :: ·)

/-- Reads a string of digits given as bytes; an odd length is noticed before any wrong digit. -/
def decodeBytes (bs : Bytes) : Except Error Bytes :=
  if bs.length % 2 = 1 then .error .oddLength else decodeFrom 0 bs

/-- Reads a hexadecimal text. -/
def decode (cs : List Char) : Except Error Bytes := decodeBytes (Text.utf8Chars cs)

/-- A text without the `0x` it may start with. -/
def unmarked : List Char → List Char
  | '0' :: 'x' :: rest => rest
  | cs => cs

/-- The words for an error; a byte is shown as the character of the same number. -/
def Error.message : Error → String
  | .oddLength => "Odd number of digits"
  | .invalidByte b i => s!"Invalid character {Text.quotedChar (Char.ofUInt8 b)} at position {i}"

end Hex

end LedgerKit
