import LedgerKit.Key.Public
import LedgerKit.Proofs.DerDocument
import LedgerKit.Proofs.Hexadecimal
import LedgerKit.Proofs.JsonCodec

/-!
# Which public keys are points

A public key that is read from bytes, from a document or from hexadecimal is a point of the curve,
and its text is read back.  A key that is read from JSON need not be one: any 32 bytes are the key
of some document, and its text is read back only if they happen to encode a point.

* `PublicKey.points_of_readers` : what each reader lets through.
* `PublicKey.json_off_curve` : a JSON document whose key no other reader accepts.
-/

namespace LedgerKit

namespace PublicKey

/-- The bytes of the key encode a point of the curve. -/
def IsPoint (k : PublicKey) : Prop := Ed25519.isValidKey k.block = true

instance (k : PublicKey) : Decidable k.IsPoint :=
  inferInstanceAs (Decidable (Ed25519.isValidKey k.block = true))

variable {k : PublicKey}

/-! ### Readers that ask for a point -/

theorem ofRawBytes_bytes (k : PublicKey) :
    ofRawBytes k.bytes = if k.IsPoint then .ok k else .error .notAPoint := by
  rw [ofRawBytes, Block.ofBytes?_toBytes]
  rfl

theorem isPoint_of_ofRawBytes {bs : Bytes} (h : ofRawBytes bs = .ok k) : k.IsPoint := by
  unfold ofRawBytes at h
  split at h
  · cases h
  · split at h <;> cases h
    assumption

theorem isPoint_of_ofDocument {bs : Bytes} (h : ofDocument bs = .ok k) : k.IsPoint := by
  unfold ofDocument at h
  split at h
  · exact isPoint_of_ofRawBytes h
  · cases h

theorem isPoint_of_ofBytes {bs : Bytes} (h : ofBytes bs = .ok k) : k.IsPoint := by
  unfold ofBytes at h
  split at h
  · exact isPoint_of_ofRawBytes h
  · exact isPoint_of_ofDocument h

theorem isPoint_of_parse {text : String} (h : parse text = .ok k) : k.IsPoint := by
  unfold parse at h
  split at h
  · exact isPoint_of_ofBytes h
  · cases h

theorem ofDocument_toDocument (k : PublicKey) : ofDocument k.toDocument = ofRawBytes k.bytes := by
  simp only [ofDocument, toDocument, Der.decodePublic?_encodePublic]

theorem length_toDocument (k : PublicKey) : k.toDocument.length = 44 := by
  simp [toDocument, Der.encodePublic, Der.publicPrefix]

theorem ofBytes_toDocument (k : PublicKey) : ofBytes k.toDocument = ofRawBytes k.bytes := by
  have hlength := k.length_toDocument
  rw [ofBytes, if_neg (by omega), ofDocument_toDocument]

theorem parse_toString (k : PublicKey) : parse k.toString = ofRawBytes k.bytes := by
  have hread := Hex.decode_unmarked_eq_ok_iff.2 (Hex.isTextOf_encode k.toDocument)
  rw [parse, toString, hread]
  exact k.ofBytes_toDocument

/-- A reader that asks for a point, and reads what is written for it like the bytes of a key. -/
theorem exists_ok_iff {α : Type} {read : α → Except KeyError PublicKey}
    (hpoint : ∀ {a k}, read a = .ok k → k.IsPoint) (write : PublicKey → α)
    (hread : ∀ k, read (write k) = ofRawBytes k.bytes) :
    (∃ a, read a = .ok k) ↔ k.IsPoint := by
  constructor
  · rintro ⟨a, h⟩
    exact hpoint h
  · intro h
    exact ⟨write k, by rw [hread, ofRawBytes_bytes, if_pos h]⟩

/-! ### The reader of JSON -/

instance : Json.LawfulCodec PublicKey where
  isRead k := Json.isRead_ofBytes k.bytes
  ofValue?_toValue k := by
    simp [Json.Codec.ofValue?, Json.Codec.toValue, Json.Value.bytes?_ofBytes]

/-- **What the readers let through.**  From bytes, documents and hexadecimal come the points and
nothing else, and a point is read back from its bytes and from its text.  From JSON comes every key,
and one that is no point is refused by the others. -/
theorem points_of_readers (k : PublicKey) :
    ((∃ bs, ofRawBytes bs = .ok k) ↔ k.IsPoint) ∧ ((∃ bs, ofBytes bs = .ok k) ↔ k.IsPoint) ∧
    ((∃ bs, ofDocument bs = .ok k) ↔ k.IsPoint) ∧ ((∃ text, parse text = .ok k) ↔ k.IsPoint) ∧
    (∃ text, Json.decode? text = some k) ∧
    ofRawBytes k.bytes = (if k.IsPoint then .ok k else .error .notAPoint) ∧
    parse k.toString = if k.IsPoint then .ok k else .error .notAPoint :=
  ⟨exists_ok_iff isPoint_of_ofRawBytes bytes fun _ => rfl,
    exists_ok_iff isPoint_of_ofBytes toDocument ofBytes_toDocument,
    exists_ok_iff isPoint_of_ofDocument toDocument ofDocument_toDocument,
    exists_ok_iff isPoint_of_parse toString parse_toString,
    ⟨_, Json.decode?_encode k⟩, k.ofRawBytes_bytes, k.parse_toString.trans k.ofRawBytes_bytes⟩

/-- A document with 32 numbers that encode no point, since none has `y = 2`: what it is read as is
neither read from its bytes nor from its text. -/
theorem json_off_curve : ∃ k : PublicKey,
    Json.decode? "[2,0,0,0,0,0,0,0,0,0,0,0,0,0,0,0,0,0,0,0,0,0,0,0,0,0,0,0,0,0,0,0]" = some k ∧
    ofRawBytes k.bytes = .error .notAPoint ∧ parse k.toString = .error .notAPoint := by
  -- the square root that a point would need does not exist
  have hpoint : ¬ IsPoint ⟨.ofNatLE 32 2⟩ := by decide +kernel
  refine ⟨⟨.ofNatLE 32 2⟩, ?_, ?_, ?_⟩
  · exact Json.decode?_encode (⟨.ofNatLE 32 2⟩ : PublicKey)
  · rw [ofRawBytes_bytes, if_neg hpoint]
  · rw [parse_toString, ofRawBytes_bytes, if_neg hpoint]

end PublicKey

end LedgerKit
