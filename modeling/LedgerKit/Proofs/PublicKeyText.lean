import LedgerKit.Proofs.DerReader
import LedgerKit.Proofs.PublicKeyPoints

/-!
# The encodings of a public key

A public key is read from two strings of bytes: its own, and its document.  The length tells them
apart, neither may be changed, and both are accepted only for a point of the curve
(`PublicKey.ofBytes_eq_ok_iff`).  So its texts are the digits of these two, in either case and with
or without a mark in front (`PublicKey.parse_eq_ok_iff`).

* `PublicKey.encodings_of_key` : which texts and bytes are read as which key.
-/

namespace LedgerKit

/-- The error says that key material is not in the right form; the others are about keys that have
no children, about phrases and about signatures. -/
def KeyError.IsBadFormat : KeyError → Prop
  | .notHex _ | .wrongPublicKeyLength _ | .notAPoint | .noPrivateKeySection | .passwordNeeded
  | .malformedDocument => True
  | .notDerivable | .invalidMnemonic _ | .wrongSignatureLength _ => False

namespace PublicKey

variable {k : PublicKey} {bs : Bytes} {text : String} {e : KeyError}

/-! ### What is accepted -/

theorem ofRawBytes_eq_ok_iff : ofRawBytes bs = .ok k ↔ k.IsPoint ∧ bs = k.bytes := by
  constructor
  · intro h
    refine ⟨isPoint_of_ofRawBytes h, ?_⟩
    unfold ofRawBytes at h
    split at h
    · cases h
    · next b hb =>
      split at h
      · cases h
        exact (Block.ofBytes?_eq_some_iff.1 hb).symm
      · cases h
  · rintro ⟨hpoint, rfl⟩
    rw [ofRawBytes_bytes, if_pos hpoint]

theorem ofDocument_eq_ok_iff : ofDocument bs = .ok k ↔ k.IsPoint ∧ bs = k.toDocument := by
  unfold ofDocument
  cases hdecode : Der.decodePublic? bs with
  | none =>
    simp only [reduceCtorEq, false_iff, not_and]
    rintro - rfl
    rw [toDocument, Der.decodePublic?_encodePublic] at hdecode
    cases hdecode
  | some b =>
    obtain rfl := Der.decodePublic?_eq_some_iff.1 hdecode
    simp only [ofRawBytes_eq_ok_iff, toDocument, Der.encodePublic, List.append_cancel_left_eq]

theorem ofBytes_eq_ok_iff :
    ofBytes bs = .ok k ↔ k.IsPoint ∧ (bs = k.bytes ∨ bs = k.toDocument) := by
  have hraw : k.bytes.length = 32 := k.block.length_toBytes
  have hdocument := k.length_toDocument
  unfold ofBytes
  split
  · next h =>
    have hother : bs ≠ k.toDocument := by
      rintro rfl
      omega
    simp only [ofRawBytes_eq_ok_iff, hother, or_false]
  · next h =>
    have hother : bs ≠ k.bytes := by
      rintro rfl
      exact h hraw
    simp only [ofDocument_eq_ok_iff, hother, false_or]

theorem parse_eq_ok_iff : parse text = .ok k ↔
    k.IsPoint ∧ (Hex.IsTextOf k.bytes text.toList ∨ Hex.IsTextOf k.toDocument text.toList) := by
  simp only [← Hex.decode_unmarked_eq_ok_iff]
  unfold parse
  cases Hex.decode (Hex.unmarked text.toList) with
  | error cause => simp
  | ok bs => simp only [ofBytes_eq_ok_iff, Except.ok.injEq]

/-! ### What is refused -/

theorem isBadFormat_of_ofRawBytes (h : ofRawBytes bs = .error e) : e.IsBadFormat := by
  unfold ofRawBytes at h
  split at h
  · cases h
    trivial
  · split at h <;> cases h
    trivial

theorem isBadFormat_of_ofDocument (h : ofDocument bs = .error e) : e.IsBadFormat := by
  unfold ofDocument at h
  split at h
  · exact isBadFormat_of_ofRawBytes h
  · cases h
    trivial

theorem isBadFormat_of_parse (h : parse text = .error e) : e.IsBadFormat := by
  unfold parse at h
  split at h
  · unfold ofBytes at h
    split at h
    · exact isBadFormat_of_ofRawBytes h
    · exact isBadFormat_of_ofDocument h
  · cases h
    trivial

/-- **The texts of public keys.**  A text is read as a key if and only if the key is a point of the
curve and the text is, without a `0x` that it may begin with, the hexadecimal in either case of its
bytes or of these behind twelve fixed ones; every other text is refused for its format.  A key that
was read is written as its document, is read back from its two texts, and has no other encodings. -/
theorem encodings_of_key :
    (∀ (text : String) (p : Block 32), parse text = .ok ⟨p⟩ ↔
      (∃ point, Ed25519.Point.decode? p = some point) ∧
      (Hex.IsTextOf p.toBytes text.toList ∨
        Hex.IsTextOf ([0x30, 0x2a, 0x30, 0x05, 0x06, 0x03, 0x2b, 0x65, 0x70, 0x03, 0x21, 0x00] ++
          p.toBytes) text.toList)) ∧
    (∀ text : String, (∀ p, parse text ≠ .ok ⟨p⟩) → ∃ e, parse text = .error e ∧ e.IsBadFormat) ∧
    ∀ (text : String) (k : PublicKey), parse text = .ok k →
      k.toDocument = [0x30, 0x2a, 0x30, 0x05, 0x06, 0x03, 0x2b, 0x65, 0x70, 0x03, 0x21, 0x00] ++
        k.bytes ∧
      k.toString = Hex.encode k.toDocument ∧ parse k.toString = .ok k ∧
      parse k.toRawString = .ok k ∧
      ∀ bs, (ofBytes bs = .ok k ↔ bs = k.bytes ∨ bs = k.toDocument) ∧
        (ofRawBytes bs = .ok k ↔ bs = k.bytes) ∧ (ofDocument bs = .ok k ↔ bs = k.toDocument) := by
  refine ⟨fun text p => ?_, fun text h => ?_, fun text k h => ?_⟩
  · rw [parse_eq_ok_iff, IsPoint, Ed25519.isValidKey, Option.isSome_iff_exists]
    rfl
  · cases hparse : parse text with
    | ok k => exact absurd hparse (h k.block)
    | error e => exact ⟨e, rfl, isBadFormat_of_parse hparse⟩
  · have hpoint := isPoint_of_parse h
    refine ⟨rfl, rfl, parse_eq_ok_iff.2 ⟨hpoint, .inr (Hex.isTextOf_encode _)⟩,
      parse_eq_ok_iff.2 ⟨hpoint, .inl (Hex.isTextOf_encode _)⟩, fun bs => ⟨?_, ?_, ?_⟩⟩
    · rw [ofBytes_eq_ok_iff, and_iff_right hpoint]
    · rw [ofRawBytes_eq_ok_iff, and_iff_right hpoint]
    · rw [ofDocument_eq_ok_iff, and_iff_right hpoint]

end PublicKey

end LedgerKit
