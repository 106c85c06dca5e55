import LedgerKit.Ed25519.Point
import LedgerKit.Hash.Sha2

/-!
# Signatures

Ed25519: the secret is hashed into a scalar, of which the public key is the multiple of the base
point, and into a seed for the nonce of every signature.  A signature is a point and a number below
the order of the base point.
-/

namespace LedgerKit.Ed25519

/-- The order of the base point, `2 ^ 252 + 27742317777372353535851937790883648493`. -/
def order : Nat := 0x1000000000000000000000000000000014def9dea2f79cd65812631a5cf5d3ed

/-- The value of the highest bit of a secret scalar, `2 ^ 254`. -/
def topBit : Nat := 0x4000000000000000000000000000000000000000000000000000000000000000

/-- The secret scalar of a hashed secret: its three lowest bits cleared and bit 254 the highest. -/
def scalar (hashed : Block 64) : Nat :=
  Bytes.littleEndian (hashed.toBytes.take 32) % topBit / 8 * 8 + topBit

/-- The digest of some bytes as a number below the order. -/
def challenge (bs : Bytes) : Nat :=
  Bytes.littleEndian (Sha2.sha512.digest bs).toBytes % order

/-- The public key of a secret. -/
def publicKey (secret : Block 32) : Block 32 :=
  (Point.mul (scalar (Sha2.sha512.digest secret.toBytes)) Point.base).encode

/-- The signature of a message. -/
def sign (secret : Block 32) (message : Bytes) : Block 64 :=
  let hashed := Sha2.sha512.digest secret.toBytes
  let a := scalar hashed
  let key := (Point.mul a Point.base).encode
  let r := challenge (hashed.toBytes.drop 32 ++ message)
  let point := (Point.mul r Point.base).encode
  let k := challenge (point.toBytes ++ key.toBytes ++ message)
  point.append (Block.ofNatLE 32 ((r + k * a) % order))

/-- The key decodes to a point. -/
def isValidKey (key : Block 32) : Bool := (Point.decode? key).isSome

/-- The signature is one of the message under the key: its number is below the order, and its first
half is the encoding of the point that its number and the key determine. -/
def verify (key : Block 32) (message : Bytes) (signature : Block 64) : Bool :=
  let point : Block 32 := @Block.left 32 32 signature
  let s := Bytes.littleEndian (signature.toBytes.drop 32)
  if order ≤ s then false
  else
    match Point.decode? key with
    | none => false
    | some a =>
      let k := challenge (point.toBytes ++ key.toBytes ++ message)
      ((Point.mul s Point.base).add (Point.mul k a).neg).encode == point

end LedgerKit.Ed25519
