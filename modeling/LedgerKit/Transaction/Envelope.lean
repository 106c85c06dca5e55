import LedgerKit.Key.Private
import LedgerKit.SortedMap
import LedgerKit.Transaction.Outcome

/-!
# Envelopes

An envelope holds the body of a transaction as written for one node and the signatures of that body,
one for each key.  Signatures are added and never replaced: operations on an envelope yield its
signatures anew, and cannot touch its node or its body.
-/

namespace LedgerKit

/-- What makes signatures under a public key. -/
structure Signer where
  /-- The key under which the signatures are recorded. -/
  publicKey : PublicKey
  /-- The signature of a message. -/
  sign : Bytes → Signature

/-- A private key as a signer. -/
def PrivateKey.toSigner (k : PrivateKey) : Signer := ⟨k.publicKey, k.sign⟩

/-- The signatures of a body, by the keys they were made with. -/
abbrev Signatures := SortedMap PublicKey Signature

/-- A body and its signatures. -/
structure Envelope where
  /-- The node that the body is for. -/
  node : AccountId
  /-- The bytes that are signed. -/
  body : Bytes
  /-- The signatures so far. -/
  signatures : Signatures := .empty
deriving DecidableEq

namespace Envelope

/-- What signing leaves alone: the node and the body. -/
def slot (e : Envelope) : AccountId × Bytes := (e.node, e.body)

/-- The envelope with other signatures. -/
def withSignatures (e : Envelope) (s : Signatures) : Envelope := { e with signatures := s }

@[simp] theorem slot_withSignatures (e : Envelope) (s : Signatures) :
    (e.withSignatures s).slot = e.slot := rfl

/-- Records a signature; the answer tells whether it is new.  A key that has signed already can only
repeat itself. -/
def insert (e : Envelope) (key : PublicKey) (s : Signature) : Outcome Signatures Bool :=
  match e.signatures.get? key with
  | none =>
    ⟨.ok true, e.signatures.insert key s, [.signatureAdded e.node.number key]⟩
  | some recorded =>
    if recorded = s then ⟨.ok false, e.signatures, [.signaturePresent e.node.number key]⟩
    else ⟨.error (.signatureConflict key), e.signatures, [.conflictRejected e.node.number key]⟩

/-- Signs the body and records the signature. -/
def signWith (e : Envelope) (signer : Signer) : Outcome Signatures Signature :=
  let s := signer.sign e.body
  (e.insert signer.publicKey s).map fun _ => s

/-- Every signature is one of the body. -/
def verify (e : Envelope) : Bool :=
  e.signatures.entries.all fun s => s.1.verify e.body s.2

end Envelope

end LedgerKit
