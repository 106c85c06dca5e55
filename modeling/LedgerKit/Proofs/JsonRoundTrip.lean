import LedgerKit.Client.Config
import LedgerKit.Proofs.Grammar
import LedgerKit.Proofs.PublicKeyPoints
import Mathlib.Data.Set.List

/-!
# Every type with a JSON form

What is written for a value of any such type is read as that value.

* `Json.every_codec_read_back` : all types, and which arrays are signatures.
-/

namespace LedgerKit

open Json (Codec LawfulCodec Value)

/-! ### Texts -/

instance : LawfulCodec Checksum where
  isRead c := Json.isRead_ofText c.toString
  ofValue?_toValue c := by
    have hread : Checksum.ofChars? c.letters = some c := Checksum.ofChars?_eq_some_iff.2 rfl
    simp [Codec.ofValue?, Codec.toValue, Value.text?_ofText, Checksum.parse, Checksum.toString,
      hread, Except.toOption]

instance : LawfulCodec LedgerId where
  isRead l := Json.isRead_ofText l.toString
  ofValue?_toValue l := by
    simp [Codec.ofValue?, Codec.toValue, Value.text?_ofText, LedgerId.parse_toString,
      Except.toOption]

instance : LawfulCodec LogFormat where
  isRead f := Json.isRead_ofText f.name
  ofValue?_toValue f := by cases f <;> rfl

/-! ### Ids -/

/-- The fields that are written for an id. -/
def EntityId.jsonFields (id : EntityId) : List (String × Value) :=
  [("shard", .ofNat id.shard.toNat), ("realm", .ofNat id.realm.toNat), ("num", .ofNat id.num.toNat)]
    ++ (id.checksum.map fun c => ("checksum", Codec.toValue c)).toList

theorem EntityId.lookup_jsonChecksum (id : EntityId) :
    id.jsonFields.lookup "checksum" = id.checksum.map Codec.toValue := by
  unfold jsonFields
  cases id.checksum <;> rfl

instance : LawfulCodec EntityId where
  isRead id := by
    refine Json.isRead_ofFields ?_
    cases h : id.checksum <;> simp [Json.isRead_ofNat, LawfulCodec.isRead]
  ofValue?_toValue id := by
    obtain ⟨found, hread, hlookup⟩ := Value.fields?_ofFields
      ["shard", "realm", "num", "checksum"] id.jsonFields
      (by unfold EntityId.jsonFields; cases id.checksum <;> simp)
      (by unfold EntityId.jsonFields; cases id.checksum <;> simp)
    have hshard := Json.field?_of_lookup (hlookup "shard") (Value.uint64?_ofNat id.shard)
    have hrealm := Json.field?_of_lookup (hlookup "realm") (Value.uint64?_ofNat id.realm)
    have hnum := Json.field?_of_lookup (hlookup "num") (Value.uint64?_ofNat id.num)
    have hchecksum : Json.fieldOr? found "checksum" none (Json.nullable? Codec.ofValue?) =
        some id.checksum := by
      refine Json.fieldOr?_optional (fun c hc => ?_) ?_
      · cases hc
      · rw [hlookup, id.lookup_jsonChecksum]
    have hvalue : Codec.toValue id = .ofFields id.jsonFields := rfl
    simp only [Codec.ofValue?, hvalue, Option.bind_eq_bind] at hchecksum ⊢
    simp only [hread, hshard, hrealm, hnum, hchecksum, Option.bind_some]
    rfl

instance {kind : IdKind} : LawfulCodec (TypedId kind) where
  isRead t := LawfulCodec.isRead t.id
  ofValue?_toValue t := congrArg (Option.map TypedId.mk) (LawfulCodec.ofValue?_toValue t.id)

/-! ### Signatures -/

/-- An array is a signature if and only if it is the array of its bytes. -/
theorem Signature.ofValue?_array_iff {vs : List Value} {s : Signature} :
    Codec.ofValue? (.array vs) = some s ↔ vs = s.bytes.map fun b => .ofNat b.toNat := by
  have harray : (Value.array vs).bytes? = some s.bytes ↔
      vs = s.bytes.map fun b => .ofNat b.toNat := by
    rw [Value.bytes?_eq_some_iff, Value.ofBytes, Value.array.injEq]
  rw [← harray]
  have hblock : ∀ bs, Block.ofBytes? 64 bs = some s.block ↔ bs = s.bytes := fun bs =>
    Block.ofBytes?_eq_some_iff.trans eq_comm
  simp only [Codec.ofValue?, Option.bind_eq_bind, Option.bind_eq_some_iff]
  constructor
  · rintro ⟨bs, hbs, b, hb, hs⟩
    obtain rfl := Option.some.inj hs
    rw [hbs, (hblock bs).1 hb]
  · intro hbs
    exact ⟨s.bytes, hbs, s.block, (hblock _).2 rfl, rfl⟩

/-- An array is a signature if its elements are the numbers of 64 bytes. -/
theorem Signature.exists_ofValue?_array_iff {vs : List Value} :
    (∃ s : Signature, Codec.ofValue? (.array vs) = some s) ↔
      vs.length = 64 ∧ ∀ v ∈ vs, ∃ n < 256, v = .ofNat n := by
  simp only [ofValue?_array_iff]
  constructor
  · rintro ⟨s, rfl⟩
    refine ⟨by rw [List.length_map]; exact s.block.length_toBytes, fun v hv => ?_⟩
    obtain ⟨b, -, rfl⟩ := List.mem_map.1 hv
    exact ⟨b.toNat, b.toNat_lt, rfl⟩
  · rintro ⟨hlength, hbytes⟩
    have hrange : vs ∈ Set.range (List.map fun b : UInt8 => Value.ofNat b.toNat) := by
      rw [Set.range_list_map]
      intro v hv
      obtain ⟨n, hn, rfl⟩ := hbytes v hv
      exact ⟨UInt8.ofNat n, congrArg Value.ofNat (UInt8.toNat_ofNat_of_lt hn)⟩
    obtain ⟨bs, rfl⟩ := hrange
    rw [List.length_map] at hlength
    exact ⟨⟨⟨bs, hlength⟩⟩, rfl⟩

instance : LawfulCodec Signature where
  isRead s := Json.isRead_ofBytes s.bytes
  ofValue?_toValue _ := Signature.ofValue?_array_iff.2 rfl

/-! ### Configurations -/

instance : LawfulCodec NodeEntry where
  isRead n := Json.isRead_ofFields (by simp [Json.isRead_ofText])
  ofValue?_toValue n := by
    obtain ⟨found, hread, hlookup⟩ := Value.fields?_ofFields ["address", "account_id"]
      [("address", .ofText n.address), ("account_id", .ofText n.accountId)]
      (by simp) (by simp)
    have haddress := Json.field?_of_lookup (hlookup "address") (Value.text?_ofText n.address)
    have haccount := Json.field?_of_lookup (hlookup "account_id") (Value.text?_ofText n.accountId)
    simp only [Codec.ofValue?, Codec.toValue, hread, haddress, haccount, Option.bind_eq_bind,
      Option.bind_some]
    rfl

/-- The fields that are written for a configuration. -/
def ClientConfig.jsonFields (c : ClientConfig) : List (String × Value) :=
  [("network", .ofText c.network)]
    ++ (c.ledgerId.map fun l => ("ledger_id", Codec.toValue l)).toList
    ++ [("nodes", .array (c.nodes.map Codec.toValue)),
      ("max_nodes_per_transaction", .ofNat c.maxNodes.toNat),
      ("log_format", Codec.toValue c.logFormat), ("log_level", .ofText c.logLevel)]

namespace ClientConfig

variable (c : ClientConfig)

theorem nodup_jsonFields : (c.jsonFields.map Prod.fst).Nodup := by
  unfold jsonFields
  cases c.ledgerId <;> simp

theorem lookup_jsonLedger :
    c.jsonFields.lookup "ledger_id" = c.ledgerId.map Codec.toValue := by
  unfold jsonFields
  cases c.ledgerId <;> rfl

instance : LawfulCodec ClientConfig where
  isRead c := by
    refine Json.isRead_ofFields ?_
    cases c.ledgerId <;>
      simp [Json.isRead_ofNat, Json.isRead_ofText, LawfulCodec.isRead, Json.isRead_array]
  ofValue?_toValue c := by
    obtain ⟨found, hread, hlookup⟩ := Value.fields?_ofFields
      ["network", "ledger_id", "nodes", "max_nodes_per_transaction", "log_format", "log_level"]
      c.jsonFields (by unfold jsonFields; cases c.ledgerId <;> simp) c.nodup_jsonFields
    have hfound : ∀ {name v}, (name, v) ∈ c.jsonFields → found.lookup name = some v :=
      fun hmem => (hlookup _).trans (lookup_of_mem c.nodup_jsonFields hmem)
    have hnetwork : Json.fieldOr? found "network" "testnet" (·.text?) = some c.network :=
      Json.fieldOr?_of_lookup (hfound (by simp [jsonFields])) (Value.text?_ofText _)
    have hledger : Json.fieldOr? found "ledger_id" none (Json.nullable? Codec.ofValue?) =
        some c.ledgerId := by
      refine Json.fieldOr?_optional (fun l hl => ?_) ?_
      · cases hl
      · rw [hlookup, c.lookup_jsonLedger]
    have hnodes : Json.fieldOr? found "nodes" [] NodeEntry.ofJsonArray? = some c.nodes :=
      Json.fieldOr?_of_lookup (v := .array (c.nodes.map Codec.toValue))
        (hfound (by simp [jsonFields])) (mapM_map_eq_some LawfulCodec.ofValue?_toValue _)
    have hmaxNodes : Json.fieldOr? found "max_nodes_per_transaction" 1 (·.uint64?) =
        some c.maxNodes :=
      Json.fieldOr?_of_lookup (hfound (by simp [jsonFields])) (Value.uint64?_ofNat _)
    have hformat : Json.fieldOr? found "log_format" .human Codec.ofValue? = some c.logFormat :=
      Json.fieldOr?_of_lookup (hfound (by simp [jsonFields])) (LawfulCodec.ofValue?_toValue _)
    have hlevel : Json.fieldOr? found "log_level" "info" (·.text?) = some c.logLevel :=
      Json.fieldOr?_of_lookup (hfound (by simp [jsonFields])) (Value.text?_ofText _)
    have hvalue : Codec.toValue c = .ofFields c.jsonFields := rfl
    simp only [Codec.ofValue?, hvalue, Option.bind_eq_bind] at hledger hformat ⊢
    simp only [hread, hnetwork, hledger, hnodes, hmaxNodes, hformat, hlevel, Option.bind_some]
    rfl

end ClientConfig

namespace Json

/-- **Whatever is written as JSON is read back**, with the checksum that is attached to an id; and
an array is a signature if and only if it has 64 elements and each of them is a number below 256,
which is then the byte in its place.  A number is a whole one if it is spelt by digits alone: `-0`,
`1.0` and `1e1` are none. -/
theorem every_codec_read_back :
    (∀ id : EntityId, decode? (encode id) = some id) ∧
    (∀ (kind : IdKind) (id : TypedId kind), decode? (encode id) = some id) ∧
    (∀ c : Checksum, decode? (encode c) = some c) ∧
    (∀ l : LedgerId, decode? (encode l) = some l) ∧
    (∀ k : PublicKey, decode? (encode k) = some k) ∧
    (∀ s : Signature, decode? (encode s) = some s) ∧
    (∀ f : LogFormat, decode? (encode f) = some f) ∧
    (∀ n : NodeEntry, decode? (encode n) = some n) ∧
    (∀ c : ClientConfig, decode? (encode c) = some c) ∧
    ∀ (text : String) (vs : List Value), parse? text.toList = some (.array vs) →
      ((∃ s : Signature, decode? text = some s) ↔
        vs.length = 64 ∧ ∀ v ∈ vs, ∃ n < 256, v = .ofNat n) ∧
      ∀ s : Signature, decode? text = some s ↔ vs = s.bytes.map fun b => .ofNat b.toNat := by
  refine ⟨decode?_encode, fun _ => decode?_encode, decode?_encode, decode?_encode, decode?_encode,
    decode?_encode, decode?_encode, decode?_encode, decode?_encode, fun text vs hvs => ?_⟩
  have hread : ∀ s : Signature, decode? text = some s ↔ Codec.ofValue? (.array vs) = some s :=
    fun s => by rw [decode?, hvs, Option.bind_some]
  exact ⟨(exists_congr hread).trans Signature.exists_ofValue?_array_iff,
    fun s => (hread s).trans Signature.ofValue?_array_iff⟩

end Json

end LedgerKit
