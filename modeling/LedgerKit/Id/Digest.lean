import LedgerKit.Id.Ledger

/-!
# The checksum of a text on a ledger

The characters of an address are digits to the base 31, the dot being ten.  Four numbers are taken
from them: their count modulo 5, the sums modulo 11 of the digits at even and at odd positions, and
the base-31 value modulo `26 ^ 3`.  Packed into one number, with the base-31 value of the ledger's
bytes added and the sum multiplied by a constant prime to 26, they make the checksum.  All of it is
arithmetic in 64-bit words, and no step leaves them.
-/

namespace LedgerKit

/-- The base of the weighted sums. -/
def addressRadix : UInt64 := 31

/-- The modulus of the weighted sum of an address. -/
def addressModulus : UInt64 := 26 * 26 * 26

/-- The number of checksums, as a word. -/
def checksumModulus : UInt64 := 26 * 26 * 26 * 26 * 26

/-- The factor that spreads neighbouring sums over the checksums. -/
def checksumSpread : UInt64 := 1000003

/-- The digit that a character of an address stands for. -/
def addressDigit? (c : Char) : Option UInt64 :=
  if c = '.' then some 10
  else if c.isDigit then some (UInt64.ofNat (c.toNat - 48))
  else none

/-- What the digits read so far amount to. -/
structure AddressTally where
  /-- How many there were. -/
  count : Nat
  /-- The sum modulo 11 of those at even positions. -/
  even : UInt64
  /-- The sum modulo 11 of those at odd positions. -/
  odd : UInt64
  /-- Their base-31 value modulo `addressModulus`. -/
  weighted : UInt64
deriving DecidableEq, Repr

namespace AddressTally

/-- Before the first digit. -/
def empty : AddressTally := ⟨0, 0, 0, 0⟩

/-- Takes one more digit into account. -/
def push (t : AddressTally) (d : UInt64) : AddressTally where
  count := t.count + 1
  even := if t.count % 2 = 0 then (t.even + d) % 11 else t.even
  odd := if t.count % 2 = 0 then t.odd else (t.odd + d) % 11
  weighted := (addressRadix * t.weighted + d) % addressModulus

/-- The tally of some digits, in order. -/
def ofDigits (ds : List UInt64) : AddressTally := ds.foldl push empty

/-- The four numbers packed into one. -/
def packed (t : AddressTally) : UInt64 :=
  ((UInt64.ofNat (t.count % 5) * 11 + t.even) * 11 + t.odd) * addressModulus + t.weighted

end AddressTally

/-- The base-31 value, modulo the number of checksums, of a ledger's bytes and six zero bytes. -/
def LedgerId.term (l : LedgerId) : UInt64 :=
  (l.bytes ++ List.replicate 6 0).foldl
    (fun h (b : UInt8) => (addressRadix * h + b.toUInt64) % checksumModulus) 0

namespace Checksum

/-- The checksum with a word's remainder as its number. -/
def ofWord (w : UInt64) : Checksum := ⟨Fin.ofNat checksumCount w.toNat⟩

/-- The checksum of a sequence of digits on a ledger. -/
def ofDigitsOn (l : LedgerId) (ds : List UInt64) : Checksum :=
  ofWord (((AddressTally.ofDigits ds).packed + l.term) % checksumModulus * checksumSpread
    % checksumModulus)

/-- The checksum on a ledger of a text of ASCII digits and dots. -/
def compute (l : LedgerId) (text : String) : Except IdError Checksum :=
  match text.toList.mapM addressDigit? with
  | some ds => .ok (ofDigitsOn l ds)
  | none => .error (.malformed text)

end Checksum

end LedgerKit
