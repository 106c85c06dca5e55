import LedgerKit.Der.Key
import LedgerKit.Ed25519.Signing
import LedgerKit.Json.Codec
import LedgerKit.Key.Error

/-!
# Public keys and signatures
-/

namespace LedgerKit

/-- A signature of a message. -/
structure Signature where
  /-- Its bytes. -/
  block : Block 64
deriving DecidableEq

namespace Signature

/-- The bytes of a signature. -/
abbrev bytes (s : Signature) : Bytes := s.block.toBytes

/-- The signature of these bytes, which must be 64. -/
def ofBytes (bs : Bytes) : Except KeyError Signature :=
  match Block.ofBytes? 64 bs with
  | some b => .ok ⟨b⟩
  | none => .error (.wrongSignatureLength bs.length)

/-- The signature in hexadecimal. -/
def toString (s : Signature) : String := Hex.encode s.bytes

instance : ToString Signature := ⟨toString⟩

/-- The form shown in diagnostics: the first four bytes. -/
def inspect (s : Signature) : String := s!"Signature({Hex.encode (s.bytes.take 4)})"

end Signature

/-- A key that signatures are checked with. -/
structure PublicKey where
  /-- The encoding of its point. -/
  block : Block 32
deriving DecidableEq

namespace PublicKey

/-- The bytes of a key. -/
abbrev bytes (k : PublicKey) : Bytes := k.block.toBytes

/-- Keys are ordered by their bytes. -/
instance : Ord PublicKey := ⟨compareOn bytes⟩

instance : Std.TransOrd PublicKey := inferInstanceAs (Std.TransCmp (compareOn bytes))

instance : Std.LawfulEqOrd PublicKey where
  eq_of_compare {a b} h := by
    have h : compare a.bytes b.bytes = .eq := h
    have := Std.compare_eq_iff_eq.1 h
    obtain ⟨⟨_, _⟩⟩ := a
    obtain ⟨⟨_, _⟩⟩ := b
    simp_all [bytes]

/-- The key of these 32 bytes, which must encode a point. -/
def ofRawBytes (bs : Bytes) : Except KeyError PublicKey :=
  match Block.ofBytes? 32 bs with
  | none => .error (.wrongPublicKeyLength bs.length)
  | some b => if Ed25519.isValidKey b then .ok ⟨b⟩ else .error .notAPoint

/-- The key in a document. -/
def ofDocument (bs : Bytes) : Except KeyError PublicKey :=
  match Der.decodePublic? bs with
  | some b => ofRawBytes b.toBytes
  | none => .error .malformedDocument

/-- The key of some bytes: 32 of them are taken as the key itself, any other number as a
document. -/
def ofBytes (bs : Bytes) : Except KeyError PublicKey :=
  if bs.length = 32 then ofRawBytes bs else ofDocument bs

/-- Reads the hexadecimal of a key or of its document, with or without a leading `0x`. -/
def parse (text : String) : Except KeyError PublicKey :=
  match Hex.decode (Hex.unmarked text.toList) with
  | .ok bs => ofBytes bs
  | .error cause => .error (.notHex cause)

/-- The key as a document. -/
def toDocument (k : PublicKey) : Bytes := Der.encodePublic k.block

/-- The hexadecimal of the document. -/
def toString (k : PublicKey) : String := Hex.encode k.toDocument

instance : ToString PublicKey := ⟨toString⟩

/-- The hexadecimal of the key itself. -/
def toRawString (k : PublicKey) : String := Hex.encode k.bytes

/-- The form shown in diagnostics: the first four bytes. -/
def inspect (k : PublicKey) : String := s!"PublicKey({Hex.encode (k.bytes.take 4)})"

/-- The signature is one of the message under this key. -/
def verify (k : PublicKey) (message : Bytes) (s : Signature) : Bool :=
  Ed25519.verify k.block message s.block

/-- The keys in ascending order, each of them once. -/
def sortDistinct (ks : List PublicKey) : List PublicKey :=
  (ks.mergeSort fun a b => (compare a b).isLE).eraseReps

end PublicKey

/-! ### JSON form

A key and a signature are arrays of their bytes.  A signature is also read from a string, whose
bytes it then is.  A public key is not checked to be a point. -/

instance : Json.Codec PublicKey where
  toValue k := .ofBytes k.bytes
  ofValue? v := do return ⟨← Block.ofBytes? 32 (← v.bytes?)⟩

instance : Json.Codec Signature where
  toValue s := .ofBytes s.bytes
  ofValue?
    | .string ps => (Block.ofBytes? 64 (Json.Piece.bytes ps)).map Signature.mk
    | v => do return ⟨← Block.ofBytes? 64 (← v.bytes?)⟩

end LedgerKit
