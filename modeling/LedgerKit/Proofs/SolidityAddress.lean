import LedgerKit.Id.Address
import LedgerKit.Proofs.ByteOrder
import LedgerKit.Proofs.Hexadecimal

/-!
# Solidity addresses and ids

The addresses are the entities whose shard fits 32 bits: an entity has an address if and only if it
is the entity at that address (`EntityNumber.toAddress_eq_ok_iff`).  So an id is read from the bytes
of its address and from no others, and from the texts that are, in lower case and without the `0x`
that they may begin with, what is written for it (`EntityId.addresses_are_ids`).
-/

namespace LedgerKit

/-! ### Entities and their 20 bytes -/

namespace EntityNumber

variable {n : EntityNumber} {address : Block addressLength}

theorem toAddress_of_lt (h : n.shard.toNat < 2 ^ 32) :
    n.toAddress = .ok
      (((Block.ofNatBE 4 n.shard.toNat).append (Block.ofNatBE 8 n.realm.toNat)).append
        (Block.ofNatBE 8 n.num.toNat)) :=
  if_pos h

theorem toAddress_of_not_lt (h : ¬ n.shard.toNat < 2 ^ 32) :
    n.toAddress = .error (.shardTooWide n.shard) :=
  if_neg h

/-- Each of the three numbers stands at its place. -/
theorem ofAddress_append (shard : Block 4) (realm num : Block 8) :
    ofAddress ((shard.append realm).append num) =
      ⟨UInt64.ofNat (Bytes.bigEndian shard.toBytes), UInt64.ofNat (Bytes.bigEndian realm.toBytes),
        UInt64.ofNat (Bytes.bigEndian num.toBytes)⟩ := by
  have hshard := shard.length_toBytes
  have hrealm := realm.length_toBytes
  have hnum : (shard.toBytes ++ (realm.toBytes ++ num.toBytes)).drop 12 = num.toBytes := by
    rw [← List.append_assoc]
    exact List.drop_left' (by rw [List.length_append]; omega)
  simp only [ofAddress, Block.append, List.append_assoc, List.take_left' hshard,
    List.drop_left' hshard, List.take_left' hrealm, hnum]

theorem ofAddress_of_toAddress (h : n.toAddress = .ok address) : ofAddress address = n := by
  by_cases hs : n.shard.toNat < 2 ^ 32
  · rw [toAddress_of_lt hs] at h
    obtain rfl := Except.ok.inj h
    rw [ofAddress_append]
    simp only [Block.ofNatBE]
    rw [Bytes.ofNat_bigEndian_ofNatBE hs, Bytes.ofNat_bigEndian_ofNatBE n.realm.toNat_lt,
      Bytes.ofNat_bigEndian_ofNatBE n.num.toNat_lt]
  · rw [toAddress_of_not_lt hs] at h
    cases h

theorem toAddress_ofAddress (address : Block addressLength) :
    (ofAddress address).toAddress = .ok address := by
  obtain ⟨bs, hbs⟩ := address
  have hshard : (bs.take 4).length = 4 := by simp [hbs, addressLength]
  have hrealm : ((bs.drop 4).take 8).length = 8 := by simp [hbs, addressLength]
  have hnum : (bs.drop 12).length = 8 := by simp [hbs, addressLength]
  have hlt : (ofAddress ⟨bs, hbs⟩).shard.toNat < 2 ^ 32 := by
    have hvalue := Bytes.bigEndian_lt (bs.take 4)
    rw [hshard] at hvalue
    exact Nat.lt_of_le_of_lt (Nat.mod_le _ _) hvalue
  -- the three parts are all of the address
  have hparts : bs.take 4 ++ (bs.drop 4).take 8 ++ bs.drop 12 = bs := by
    rw [← List.take_add, List.take_append_drop]
  rw [toAddress_of_lt hlt, Except.ok.injEq]
  apply Block.ext
  simp only [Block.append, Block.ofNatBE, ofAddress,
    Bytes.ofNatBE_ofNat_bigEndian (by decide) hshard,
    Bytes.ofNatBE_ofNat_bigEndian (by decide) hrealm,
    Bytes.ofNatBE_ofNat_bigEndian (by decide) hnum]
  exact hparts

theorem toAddress_eq_ok_iff : n.toAddress = .ok address ↔ ofAddress address = n :=
  ⟨ofAddress_of_toAddress, fun h => h ▸ toAddress_ofAddress address⟩

end EntityNumber

/-! ### Ids -/

namespace EntityId

variable {id : EntityId}

theorem toAddressText_eq_ok_iff {text : String} : id.toAddressText = .ok text ↔
    ∃ address, id.toAddressBytes = .ok address ∧ text = Hex.encode address.toBytes := by
  unfold toAddressText
  cases id.toAddressBytes <;> simp [Except.map, eq_comm]

/-- The text for an id is the lower case of some digits if they are those of its address. -/
theorem toAddressText_eq_ok_toLower_iff {cs : List Char} :
    id.toAddressText = .ok (String.ofList (cs.map Char.toLower)) ↔
      ∃ address, id.toAddressBytes = .ok address ∧ Hex.IsDigitsOf address.toBytes cs := by
  simp only [toAddressText_eq_ok_iff, Hex.encode, String.ofList_inj, Hex.IsDigitsOf]

/-- An id is read from the bytes of its address. -/
theorem ofAddressBytes_eq_ok_iff {bs : Bytes} : ofAddressBytes bs = .ok id ↔
    id.checksum = none ∧ ∃ address, id.toAddressBytes = .ok address ∧ address.toBytes = bs := by
  simp only [toAddressBytes, EntityNumber.toAddress_eq_ok_iff]
  unfold ofAddressBytes
  constructor
  · intro h
    split at h
    · next address haddress =>
      obtain rfl := Except.ok.inj h
      exact ⟨rfl, address, rfl, Block.ofBytes?_eq_some_iff.1 haddress⟩
    · cases h
  · rintro ⟨hnone, address, hnumber, rfl⟩
    rw [Block.ofBytes?_toBytes]
    obtain ⟨number, checksum⟩ := id
    subst hnone
    simp only [hnumber]

theorem ofAddressBytes_of_length {bs : Bytes} (h : bs.length ≠ 20) :
    ofAddressBytes bs = .error (.wrongAddressLength bs.length) := by
  simp only [ofAddressBytes, Block.ofBytes?, dif_neg h]

theorem exists_ofAddressBytes {bs : Bytes} (h : bs.length = 20) :
    ∃ id, ofAddressBytes bs = .ok id := by
  simp only [ofAddressBytes, Block.ofBytes?, dif_pos h]
  exact ⟨_, rfl⟩

/-- The number of bytes of a text after the mark that it may begin with. -/
def unmarkedSize (text : String) : ℕ := (Text.utf8Chars (Hex.unmarked text.toList)).length

theorem ofAddressText_of_size {text : String} (h : unmarkedSize text ≠ 40) :
    ofAddressText text = .error (.wrongAddressLength (unmarkedSize text)) :=
  if_pos h

theorem ofAddressText_of_size_eq {text : String} (h : unmarkedSize text = 40) :
    ofAddressText text = match Hex.decode (Hex.unmarked text.toList) with
      | .ok bs => ofAddressBytes bs
      | .error _ => .error (.malformed text) :=
  if_neg (not_not_intro h)

/-- An id is read from the digits of its address, in either case, with or without the mark. -/
theorem ofAddressText_eq_ok_iff {text : String} : ofAddressText text = .ok id ↔
    id.checksum = none ∧ ∃ address, id.toAddressBytes = .ok address ∧
      Hex.IsDigitsOf address.toBytes (Hex.unmarked text.toList) := by
  constructor
  · intro h
    by_cases hsize : unmarkedSize text = 40
    · rw [ofAddressText_of_size_eq hsize] at h
      split at h
      · next bs hbs =>
        obtain ⟨hnone, address, haddress, rfl⟩ := ofAddressBytes_eq_ok_iff.1 h
        exact ⟨hnone, address, haddress, Hex.decode_eq_ok_iff.1 hbs⟩
      · cases h
    · rw [ofAddressText_of_size hsize] at h
      cases h
  · rintro ⟨hnone, address, haddress, hdigits⟩
    have hdecode := Hex.decode_eq_ok_iff.2 hdigits
    have hsize : unmarkedSize text = 40 := by
      rw [unmarkedSize, Hex.length_of_decodeBytes hdecode, address.length_toBytes]
      rfl
    rw [ofAddressText_of_size_eq hsize, hdecode]
    exact ofAddressBytes_eq_ok_iff.2 ⟨hnone, address, haddress, rfl⟩

/-- A text that is no address is refused for its size, and else for its digits. -/
theorem ofAddressText_of_not {text : String} (h : ∀ id, ofAddressText text ≠ .ok id) :
    ofAddressText text = .error
      (if unmarkedSize text = 40 then .malformed text
        else .wrongAddressLength (unmarkedSize text)) := by
  split
  · next hsize =>
    rw [ofAddressText_of_size_eq hsize] at h ⊢
    cases hdecode : Hex.decode (Hex.unmarked text.toList) with
    | error _ => rfl
    | ok bs =>
      have hlength := Hex.length_of_decodeBytes hdecode
      rw [unmarkedSize] at hsize
      have hbytes : bs.length = 20 := by omega
      obtain ⟨id, hid⟩ := exists_ofAddressBytes hbytes
      rw [hdecode] at h
      exact absurd hid (h id)
  · next hsize => exact ofAddressText_of_size hsize

/-- **Addresses are the ids whose shard fits 32 bits.**  These ids have an address of 20 bytes and
of 40 lower-case digits without a mark, and no others have.  An id is read from the bytes that are
written for it and from no others, and every 20 bytes are those of an id; bytes of another number
are refused with this number.  It is read from a text if and only if this is, without a `0x` in
front, 40 digits whose lower case is written for it; any other text is refused with its size,
counted after the mark, or, if this is right, as a whole. -/
theorem addresses_are_ids :
    (∀ id : EntityId,
      (id.shard.toNat < 2 ^ 32 → ∃ address text, id.toAddressBytes = .ok address ∧
        id.toAddressText = .ok text ∧ text.length = 40 ∧
        (∀ c ∈ text.toList, Hex.IsLowerDigit c) ∧ Hex.unmarked text.toList = text.toList) ∧
      (¬ id.shard.toNat < 2 ^ 32 →
        id.toAddressBytes = .error (.shardTooWide id.shard) ∧
        id.toAddressText = .error (.shardTooWide id.shard))) ∧
    (∀ text : String,
      (∀ id, ofAddressText text = .ok id ↔ id.checksum = none ∧
        (Hex.unmarked text.toList).length = 40 ∧
        (∀ c ∈ Hex.unmarked text.toList, Hex.IsDigit c) ∧
        id.toAddressText = .ok (String.ofList ((Hex.unmarked text.toList).map Char.toLower))) ∧
      ((∀ id, ofAddressText text ≠ .ok id) → ofAddressText text = .error
        (if unmarkedSize text = 40 then .malformed text
          else .wrongAddressLength (unmarkedSize text)))) ∧
    ∀ bs : Bytes,
      (∀ id, ofAddressBytes bs = .ok id ↔ id.checksum = none ∧
        ∃ address, id.toAddressBytes = .ok address ∧ address.toBytes = bs) ∧
      (bs.length = 20 → ∃ id, ofAddressBytes bs = .ok id) ∧
      (bs.length ≠ 20 → ofAddressBytes bs = .error (.wrongAddressLength bs.length)) := by
  refine ⟨fun id => ⟨fun h => ?_, fun h => ?_⟩, fun text => ⟨fun id => ?_, ofAddressText_of_not⟩,
    fun bs => ⟨fun id => ofAddressBytes_eq_ok_iff, exists_ofAddressBytes, ofAddressBytes_of_length⟩⟩
  · have haddress := EntityNumber.toAddress_of_lt (n := id.number) h
    refine ⟨_, _, haddress, toAddressText_eq_ok_iff.2 ⟨_, haddress, rfl⟩, ?_,
      Hex.isLowerDigit_encode _, Hex.unmarked_encode _⟩
    rw [Hex.length_encode, Block.length_toBytes]
    rfl
  · have herror : id.toAddressBytes = .error (.shardTooWide id.shard) :=
      EntityNumber.toAddress_of_not_lt h
    refine ⟨herror, ?_⟩
    rw [toAddressText, herror]
    rfl
  · rw [ofAddressText_eq_ok_iff, toAddressText_eq_ok_toLower_iff]
    constructor
    · rintro ⟨hnone, address, haddress, hdigits⟩
      have hlength := hdigits.length
      rw [address.length_toBytes] at hlength
      exact ⟨hnone, hlength, hdigits.isDigit, address, haddress, hdigits⟩
    · rintro ⟨hnone, -, -, haddress⟩
      exact ⟨hnone, haddress⟩

end EntityId

end LedgerKit
