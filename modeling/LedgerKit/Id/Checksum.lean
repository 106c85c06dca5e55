import LedgerKit.Bytes.Hex

/-!
# Checksum letters

A checksum is a number below `26 ^ 5`, written as its five base-26 digits, `a` for zero, the most
significant first.  `IdError` says what is wrong with a text that is none, or with an id.
-/

namespace LedgerKit

/-- How many checksums there are. -/
abbrev checksumCount : Nat := 26 * 26 * 26 * 26 * 26

/-- The five letters by which an id names the network it belongs to. -/
structure Checksum where
  /-- The number that the letters spell. -/
  value : Fin checksumCount
deriving DecidableEq

namespace Checksum

/-- The letter of a base-26 digit. -/
def letter (n : Nat) : Char := Char.ofNat (97 + n % 26)

/-- The base-26 digit of a lower-case letter. -/
def letterValue? (c : Char) : Option (Fin 26) :=
  if h : 97 ≤ c.toNat ∧ c.toNat ≤ 122 then some ⟨c.toNat - 97, by omega⟩ else none

/-- The five letters. -/
def letters (c : Checksum) : List Char :=
  let n := c.value.val
  [letter (n / 26 / 26 / 26 / 26), letter (n / 26 / 26 / 26), letter (n / 26 / 26), letter (n / 26),
    letter n]

/-- The checksum with these five base-26 digits. -/
def ofDigits (a b c d e : Fin 26) : Checksum :=
  ⟨⟨(((a.val * 26 + b.val) * 26 + c.val) * 26 + d.val) * 26 + e.val, by
    simp only [checksumCount]
    omega⟩⟩

/-- The checksum spelt by five lower-case ASCII letters. -/
def ofChars? : List Char → Option Checksum
  | [a, b, c, d, e] => do
    return ofDigits (← letterValue? a) (← letterValue? b) (← letterValue? c) (← letterValue? d)
      (← letterValue? e)
  | _ => none

/-- The letters as a text. -/
def toString (c : Checksum) : String := String.ofList c.letters

instance : ToString Checksum := ⟨toString⟩

/-- The form shown in diagnostics. -/
def inspect (c : Checksum) : String := s!"Checksum({c})"

end Checksum

/-! ### What can be wrong with an id -/

/-- Why a text is not an id, or why an id has no other form or does not belong to a network. -/
inductive IdError where
  /-- The text is neither an id nor a checksum. -/
  | malformed (text : String)
  /-- A Solidity address of this length. -/
  | wrongAddressLength (got : Nat)
  /-- A shard too large for a Solidity address. -/
  | shardTooWide (shard : UInt64)
  /-- Checksums depend on the network, and none is known. -/
  | unknownNetwork
  /-- The attached checksum is not the one of this id on this network. -/
  | checksumMismatch (expected actual : Checksum)
  /-- The text is neither a network's name nor hexadecimal. -/
  | malformedLedger (text : String) (cause : Hex.Error)
deriving DecidableEq

/-- The words for an error. -/
def IdError.message : IdError → String
  | .malformed text =>
    s!"invalid entity id {Text.quoted text}: format should look like 0.0.123 or 0.0.123-vfmkw"
  | .wrongAddressLength got => s!"solidity addresses must be 20 bytes or 40 hex chars, got {got}"
  | .shardTooWide shard => s!"shard {shard} does not fit in 32 bits"
  | .unknownNetwork =>
    "cannot compute or validate a checksum without knowing which network the id is for"
  | .checksumMismatch expected actual => s!"checksum mismatch: expected {expected}, got {actual}"
  | .malformedLedger text cause => s!"invalid ledger id: {Text.quoted text}: {cause.message}"

/-- Reads five checksum letters. -/
def Checksum.parse (text : String) : Except IdError Checksum :=
  match Checksum.ofChars? text.toList with
  | some c => .ok c
  | none => .error (.malformed text)

end LedgerKit
