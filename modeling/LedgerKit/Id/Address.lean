import LedgerKit.Id.Entity

/-!
# Solidity addresses

An entity whose shard fits 32 bits has a form of 20 bytes: the shard in four, the realm and the
number in eight each, most significant byte first.  As a text it is 40 hexadecimal digits.
-/

namespace LedgerKit

/-- How many bytes an address has. -/
abbrev addressLength : Nat := 20

namespace EntityNumber

/-- The entity at an address. -/
def ofAddress (address : Block addressLength) : EntityNumber where
  shard := UInt64.ofNat (Bytes.bigEndian (address.toBytes.take 4))
  realm := UInt64.ofNat (Bytes.bigEndian ((address.toBytes.drop 4).take 8))
  num := UInt64.ofNat (Bytes.bigEndian (address.toBytes.drop 12))

/-- The address of an entity, if its shard is narrow enough. -/
def toAddress (n : EntityNumber) : Except IdError (Block addressLength) :=
  if n.shard.toNat < UInt32.size then
    .ok (((Block.ofNatBE 4 n.shard.toNat).append (Block.ofNatBE 8 n.realm.toNat)).append
      (Block.ofNatBE 8 n.num.toNat))
  else .error (.shardTooWide n.shard)

end EntityNumber

namespace EntityId

/-- The id of the entity at an address given as bytes. -/
def ofAddressBytes (bs : Bytes) : Except IdError EntityId :=
  match Block.ofBytes? addressLength bs with
  | some address => .ok ⟨EntityNumber.ofAddress address, none⟩
  | none => .error (.wrongAddressLength bs.length)

/-- The id of the entity at an address given as text.  The length is counted in bytes of the text
after a leading `0x`, and it is checked before the digits are. -/
def ofAddressText (text : String) : Except IdError EntityId :=
  let digits := Text.utf8Chars (Hex.unmarked text.toList)
  if digits.length ≠ 2 * addressLength then .error (.wrongAddressLength digits.length)
  else
    match Hex.decodeBytes digits with
    | .ok bs => ofAddressBytes bs
    | .error _ => .error (.malformed text)

/-- The address as 20 bytes. -/
def toAddressBytes (id : EntityId) : Except IdError (Block addressLength) := id.number.toAddress

/-- The address as 40 lower-case digits. -/
def toAddressText (id : EntityId) : Except IdError String :=
  id.toAddressBytes.map fun b => Hex.encode b.toBytes

end EntityId

end LedgerKit
