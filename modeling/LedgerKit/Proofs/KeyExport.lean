import LedgerKit.Key.Private
import LedgerKit.Proofs.DerDocument
import LedgerKit.Proofs.Hexadecimal

/-!
# Private keys, written and read

A private key is written as its secret, as its secret with a public key after it, or as a document;
each of them also in hexadecimal.  Every form is read as a key with the same secret and no chain
code (`PrivateKey.ofBytes_write`), and what a key shows of itself follows from its secret.

* `PrivateKey.written_is_read` : all forms, as bytes and as texts.
-/

namespace LedgerKit

namespace PrivateKey

/-- The forms that the bytes of a key come in. -/
inductive Form where
  /-- The secret. -/
  | raw
  /-- The secret and some public key, which need not be the right one. -/
  | paired (point : Block 32)
  /-- The document. -/
  | document

/-- The bytes of a key in a form. -/
def write (k : PrivateKey) : Form → Bytes
  | .raw => k.secret.toBytes
  | .paired point => k.secret.toBytes ++ point.toBytes
  | .document => k.toDocument

/-- The key without its chain code. -/
def withoutChain (k : PrivateKey) : PrivateKey := ⟨k.secret, none⟩

/-- A key that does what another does, except that no others can be derived from it. -/
structure Resembles (k' k : PrivateKey) : Prop where
  secret : k'.secret = k.secret
  publicKey : k'.publicKey = k.publicKey
  text : k'.toString = k.toString
  document : k'.toDocument = k.toDocument
  signs : ∀ message, k'.sign message = k.sign message
  chainCode : k'.chainCode = none

variable (k : PrivateKey)

theorem resembles_withoutChain : k.withoutChain.Resembles k :=
  ⟨rfl, rfl, rfl, rfl, fun _ => rfl, rfl⟩

theorem length_toDocument : k.toDocument.length = 48 := by
  simp [toDocument, Der.encodePrivate, Der.privatePrefix]

theorem ofDocument_toDocument : ofDocument k.toDocument = .ok k.withoutChain := by
  simp only [ofDocument, toDocument, Der.decodePrivate?_encodePrivate]
  rfl

/-- The length tells the forms apart: a document is never as long as the bytes of a key. -/
theorem ofBytes_write (form : Form) : ofBytes (k.write form) = .ok k.withoutChain := by
  cases form with
  | raw =>
    have hprefix : Block.ofPrefix 32 k.secret.toBytes (by simp) = k.secret :=
      Block.ext (by simp [Block.ofPrefix, List.take_of_length_le])
    rw [write, ofBytes, dif_pos (by simp), hprefix]
    rfl
  | paired point =>
    have hprefix : Block.ofPrefix 32 (k.secret.toBytes ++ point.toBytes) (by simp) = k.secret :=
      Block.ext (by simp [Block.ofPrefix])
    rw [write, ofBytes, dif_pos (by simp), hprefix]
    rfl
  | document =>
    have hlength := k.length_toDocument
    rw [write, ofBytes, dif_neg (by omega), ofDocument_toDocument]

theorem parse_of_isTextOf {text : String} {bs : Bytes} (h : Hex.IsTextOf bs text.toList) :
    parse text = ofBytes bs := by
  rw [parse, Hex.decode_unmarked_eq_ok_iff.2 h]

/-- **What is written for a key is read as that key.** -/
theorem written_is_read :
    k.toDocument = [0x30, 0x2e, 0x02, 0x01, 0x00, 0x30, 0x05, 0x06, 0x03, 0x2b, 0x65, 0x70, 0x04,
      0x22, 0x04, 0x20] ++ k.secret.toBytes ∧ k.toDocument.length = 48 ∧
    (∃ k', ofDocument k.toDocument = .ok k' ∧ k'.Resembles k) ∧
    ∀ form, (∃ k', ofBytes (k.write form) = .ok k' ∧ k'.Resembles k) ∧
      ∀ text : String, Hex.IsTextOf (k.write form) text.toList →
        ∃ k', parse text = .ok k' ∧ k'.Resembles k := by
  refine ⟨rfl, k.length_toDocument, ⟨_, k.ofDocument_toDocument, k.resembles_withoutChain⟩, ?_⟩
  intro form
  refine ⟨⟨_, k.ofBytes_write form, k.resembles_withoutChain⟩, ?_⟩
  intro text htext
  refine ⟨_, ?_, k.resembles_withoutChain⟩
  rw [parse_of_isTextOf htext, ofBytes_write]

end PrivateKey

end LedgerKit
