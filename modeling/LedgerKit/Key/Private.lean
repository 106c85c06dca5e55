import LedgerKit.Key.Mnemonic
import LedgerKit.Key.Public
import LedgerKit.Pem.PrivateKey

/-!
# Private keys

A key is a secret and, if others can be derived from it, a chain code.  Keys drawn at random or
recovered from a phrase have one; keys that were imported have none.  A child's secret and chain
code are the two halves of the digest, under the chain code, of the secret and the child's number,
with the top bit of the number set.
-/

namespace LedgerKit

/-- A key that signatures are made with. -/
structure PrivateKey where
  /-- The secret. -/
  secret : Block 32
  /-- What children are derived with, if the key can have any. -/
  chainCode : Option (Block 32) := none
deriving DecidableEq

namespace PrivateKey

/-- The path from the master key of a phrase to the key of an account. -/
def accountPath : List UInt32 := [44, 3030, 0, 0]

/-- The key whose secret is the first half of a state and whose chain code is the other. -/
def ofState (state : Block 64) : PrivateKey :=
  ⟨@Block.left 32 32 state, some (@Block.right 32 32 state)⟩

/-- A key drawn from a source. -/
def generate {σ : Type} [RandomSource σ] (s : σ) : PrivateKey × σ :=
  let (state, s) := RandomSource.draw 64 s
  (ofState state, s)

/-- The key in a document. -/
def ofDocument (bs : Bytes) : Except KeyError PrivateKey :=
  match Der.decodePrivate? bs with
  | some secret => .ok ⟨secret, none⟩
  | none => .error .malformedDocument

/-- The key of some bytes: 32 of them are taken as the secret, 64 as the secret and a public key,
and any other number as a document. -/
def ofBytes (bs : Bytes) : Except KeyError PrivateKey :=
  if h : bs.length = 32 ∨ bs.length = 64 then .ok ⟨Block.ofPrefix 32 bs (by omega), none⟩
  else ofDocument bs

/-- Reads the hexadecimal of such bytes, with or without a leading `0x`. -/
def parse (text : String) : Except KeyError PrivateKey :=
  match Hex.decode (Hex.unmarked text.toList) with
  | .ok bs => ofBytes bs
  | .error cause => .error (.notHex cause)

/-- The first key in a text file, which may be encrypted if a password is given. -/
def ofPem (text : String) (password? : Option String) : Except KeyError PrivateKey :=
  match Pem.readPrivateKey text password? with
  | .ok document => ofDocument document
  | .error e => .error e

/-- What is digested to make the child with a number: a zero byte, the secret and the number. -/
def childInput (k : PrivateKey) (index : UInt32) : Bytes :=
  0 :: k.secret.toBytes ++ Bytes.ofNatBE 4 (index ||| 0x80000000).toNat

/-- The child of a number, of which the top bit does not matter. -/
def derive (k : PrivateKey) (index : UInt32) : Except KeyError PrivateKey :=
  match k.chainCode with
  | some c => .ok (ofState (Sha2.sha512.hmac c.toBytes (k.childInput index)))
  | none => .error .notDerivable

/-- The descendant along a path. -/
def derivePath (k : PrivateKey) : List UInt32 → Except KeyError PrivateKey
  | [] => .ok k
  | index :: path =>
    match k.derive index with
    | .ok child => child.derivePath path
    | .error e => .error e

/-- The master key of a seed. -/
def ofSeed (seed : Block 64) : PrivateKey :=
  ofState (Sha2.sha512.hmac (Text.utf8 "ed25519 seed") seed.toBytes)

/-- The account's key that a phrase and a passphrase recover. -/
def ofMnemonic (m : Mnemonic) (passphrase : String) : Except KeyError PrivateKey :=
  (ofSeed (m.seed passphrase)).derivePath accountPath

/-- The key of the entropy of an older kind of phrase.  It has no chain code. -/
def ofLegacyEntropy (entropy : Bytes) : PrivateKey :=
  ⟨Sha2.sha512.pbkdf2 (entropy ++ List.replicate 8 0xff) [0xff] 2048 32, none⟩

/-- Children can be derived from the key. -/
def isDerivable (k : PrivateKey) : Bool := k.chainCode.isSome

/-- The public key that belongs to the key. -/
def publicKey (k : PrivateKey) : PublicKey := ⟨Ed25519.publicKey k.secret⟩

/-- The signature of a message. -/
def sign (k : PrivateKey) (message : Bytes) : Signature := ⟨Ed25519.sign k.secret message⟩

/-- The key as a document, which leaves the chain code out. -/
def toDocument (k : PrivateKey) : Bytes := Der.encodePrivate k.secret

/-- The hexadecimal of the document. -/
def toString (k : PrivateKey) : String := Hex.encode k.toDocument

instance : ToString PrivateKey := ⟨toString⟩

end PrivateKey

end LedgerKit
