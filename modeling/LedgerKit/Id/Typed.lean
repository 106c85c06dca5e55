import LedgerKit.Id.Address
import LedgerKit.Json.Codec

/-!
# Ids of one kind

The ids of accounts, files, contracts, tokens, topics and schedules are written alike.  `TypedId`
tells them apart, so that none of them is taken for another, and every operation is that of the
`EntityId` inside.
-/

namespace LedgerKit

/-- What an id names. -/
inductive IdKind where
  | account
  | file
  | contract
  | token
  | topic
  | schedule
deriving DecidableEq, Repr

/-- The name of the type of the ids of a kind. -/
def IdKind.typeName : IdKind → String
  | .account => "AccountId"
  | .file => "FileId"
  | .contract => "ContractId"
  | .token => "TokenId"
  | .topic => "TopicId"
  | .schedule => "ScheduleId"

/-- An id of the given kind. -/
structure TypedId (kind : IdKind) where
  /-- The id, whatever its kind. -/
  id : EntityId
deriving DecidableEq

/-- The id of an account. -/
abbrev AccountId := TypedId .account

namespace TypedId

variable {kind : IdKind}

/-- The id of the given numbers, without a checksum. -/
def ofNumbers (shard realm num : UInt64) : TypedId kind := ⟨⟨⟨shard, realm, num⟩, none⟩⟩

/-- The numbers, by which ids are the same or different. -/
abbrev number (t : TypedId kind) : EntityNumber := t.id.number

instance : Ord (TypedId kind) := ⟨compareOn TypedId.id⟩

instance : Std.TransOrd (TypedId kind) := inferInstanceAs (Std.TransCmp (compareOn TypedId.id))

/-- Reads an id of this kind. -/
def parse (text : String) : Except IdError (TypedId kind) := (EntityId.parse text).map TypedId.mk

/-- Reads an address as an id of this kind. -/
def ofAddressText (text : String) : Except IdError (TypedId kind) :=
  (EntityId.ofAddressText text).map TypedId.mk

/-- The same numbers and checksum as an id of another kind. -/
def convert {other : IdKind} (t : TypedId kind) : TypedId other := ⟨t.id⟩

/-- The written form. -/
def toString (t : TypedId kind) : String := t.id.toString

instance : ToString (TypedId kind) := ⟨toString⟩

/-- The form shown in diagnostics. -/
def inspect (t : TypedId kind) : String := s!"{kind.typeName}({t.id.inspect})"

end TypedId

/-! ### JSON form

An id is a record of its three numbers and, if one is attached, its checksum.  Checksums and ledgers
are texts. -/

instance : Json.Codec Checksum where
  toValue c := .ofText c.toString
  ofValue? v := do (Checksum.parse (← v.text?)).toOption

instance : Json.Codec LedgerId where
  toValue l := .ofText l.toString
  ofValue? v := do (LedgerId.parse (← v.text?)).toOption

instance : Json.Codec EntityId where
  toValue id :=
    .ofFields ([("shard", .ofNat id.shard.toNat), ("realm", .ofNat id.realm.toNat),
      ("num", .ofNat id.num.toNat)]
      ++ (id.checksum.map fun c => ("checksum", Json.Codec.toValue c)).toList)
  ofValue? v := do
    let fields ← v.fields? ["shard", "realm", "num", "checksum"]
    return ⟨⟨← Json.field? fields "shard" (·.uint64?), ← Json.field? fields "realm" (·.uint64?),
        ← Json.field? fields "num" (·.uint64?)⟩,
      ← Json.fieldOr? fields "checksum" none (Json.nullable? Json.Codec.ofValue?)⟩

instance {kind : IdKind} : Json.Codec (TypedId kind) where
  toValue t := Json.Codec.toValue t.id
  ofValue? v := (Json.Codec.ofValue? v).map TypedId.mk

end LedgerKit
