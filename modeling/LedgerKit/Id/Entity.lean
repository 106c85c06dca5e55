import LedgerKit.Text.Decimal
import LedgerKit.Text.Search
import LedgerKit.Id.Digest

/-!
# Entity ids

An entity is known by three numbers, written `shard.realm.num`.  An `EntityId` is such an
`EntityNumber` with the checksum letters it was given, if it was given any: `0.0.123-vfmkw`.  The
letters say on which network the id was meant and take no part in comparing ids.
-/

namespace LedgerKit

/-- The three numbers that name an entity. -/
structure EntityNumber where
  /-- The shard. -/
  shard : UInt64
  /-- The realm within the shard. -/
  realm : UInt64
  /-- The entity within the realm. -/
  num : UInt64
deriving DecidableEq

namespace EntityNumber

/-- Entities are ordered by shard, then realm, then number. -/
instance : Ord EntityNumber :=
  ⟨compareLex (compareOn shard) (compareLex (compareOn realm) (compareOn num))⟩

instance : Std.TransOrd EntityNumber :=
  inferInstanceAs (Std.TransCmp
    (compareLex (compareOn shard) (compareLex (compareOn realm) (compareOn num))))

instance : Std.LawfulEqOrd EntityNumber where
  eq_of_compare {a b} h := by
    have h :
        compareLex (compareOn shard) (compareLex (compareOn realm) (compareOn num)) a b = .eq := h
    simp only [compareLex_eq_eq, compareOn, Std.compare_eq_iff_eq] at h
    cases a; cases b; simp_all

/-- The characters of the written form. -/
def chars (n : EntityNumber) : List Char :=
  Nat.toDigits 10 n.shard.toNat ++ '.' :: Nat.toDigits 10 n.realm.toNat
    ++ '.' :: Nat.toDigits 10 n.num.toNat

/-- The written form, `shard.realm.num`. -/
def toString (n : EntityNumber) : String := String.ofList n.chars

instance : ToString EntityNumber := ⟨toString⟩

/-- The entity of a written form: three canonical 64-bit numbers with a dot between them. -/
def ofChars? (cs : List Char) : Option EntityNumber :=
  match cs.splitOn '.' with
  | [shard, realm, num] => do
    return ⟨← Decimal.ofChars64? shard, ← Decimal.ofChars64? realm, ← Decimal.ofChars64? num⟩
  | _ => none

end EntityNumber

/-- An entity, with the checksum attached to its mention. -/
structure EntityId extends EntityNumber where
  /-- The letters that were given with the id. -/
  checksum : Option Checksum := none
deriving DecidableEq

namespace EntityId

/-- The three numbers without the checksum. -/
abbrev number (id : EntityId) : EntityNumber := id.toEntityNumber

/-- Ids compare by their numbers alone. -/
instance : Ord EntityId := ⟨compareOn number⟩

instance : Std.TransOrd EntityId := inferInstanceAs (Std.TransCmp (compareOn number))

/-- The characters of an id and of the checksum attached to it. -/
def chars (id : EntityId) : List Char :=
  match id.checksum with
  | none => id.number.chars
  | some c => id.number.chars ++ '-' :: c.letters

/-- The written form, which leaves the checksum out. -/
def toString (id : EntityId) : String := id.number.toString

instance : ToString EntityId := ⟨toString⟩

/-- The form shown in diagnostics: with the checksum, between quotation marks. -/
def inspect (id : EntityId) : String := String.ofList ('"' :: id.chars ++ ['"'])

/-- The id of a written form, with or without a checksum. -/
def ofChars? (cs : List Char) : Option EntityId :=
  match Text.splitOnce '-' cs with
  | (address, none) => (EntityNumber.ofChars? address).map fun n => ⟨n, none⟩
  | (address, some letters) => do
    let c ← Checksum.ofChars? letters
    let n ← EntityNumber.ofChars? address
    return ⟨n, some c⟩

/-- Reads an id; an error quotes the whole text. -/
def parse (text : String) : Except IdError EntityId :=
  match ofChars? text.toList with
  | some id => .ok id
  | none => .error (.malformed text)

/-- The checksum of the id on a ledger, which must be known. -/
def computeChecksum (id : EntityId) : Option LedgerId → Except IdError Checksum
  | none => .error .unknownNetwork
  | some ledger => Checksum.compute ledger id.toString

/-- The written form with the checksum for a ledger, whatever checksum is attached. -/
def toStringWithChecksum (id : EntityId) (ledger? : Option LedgerId) : Except IdError String :=
  (id.computeChecksum ledger?).map fun c => s!"{id}-{c}"

/-- Checks that an attached checksum is the one for a ledger.  An id without one passes, but without
a ledger nothing can be checked. -/
def validateChecksum (id : EntityId) : Option LedgerId → Except IdError Unit
  | none => .error .unknownNetwork
  | some ledger =>
    match id.checksum with
    | none => .ok ()
    | some actual => do
      let expected ← Checksum.compute ledger id.toString
      if expected = actual then .ok () else .error (.checksumMismatch expected actual)

end EntityId

end LedgerKit
