import LedgerKit.Hash.Sha2

/-!
# Keyed hashes

HMAC over a hash of the SHA-2 family.  The key is one block, by which the inner and the outer hash
start; `MacKey` holds the two states after that block, so that one key serves many messages.
-/

namespace LedgerKit.Sha2

/-- A key, taken into the inner and the outer hash. -/
structure MacKey (W : Type) where
  /-- The state in which the hash of the message goes on. -/
  inner : State W
  /-- The state in which the hash of that digest goes on. -/
  outer : State W
deriving DecidableEq

namespace Variant

variable {W : Type} [Word W]

/-- A key as one block: a long key is hashed first, a short one filled up with zeros. -/
@[specialize] def keyBlock (v : Variant W) (key : Bytes) : Bytes :=
  let k := if key.length ≤ blockLength W then key else (v.digest key).toBytes
  k ++ List.replicate (blockLength W - k.length) 0

/-- The key of this byte string. -/
@[specialize] def macKey (v : Variant W) (key : Bytes) : MacKey W where
  inner := compress v.start ((v.keyBlock key).map (· ^^^ 0x36))
  outer := compress v.start ((v.keyBlock key).map (· ^^^ 0x5c))

/-- The keyed digest of a message. -/
@[specialize] def mac (v : Variant W) (key : MacKey W) (message : Bytes) : Block v.size :=
  let inner := v.output (finish key.inner (blockLength W) message)
  v.output (finish key.outer (blockLength W) inner.toBytes)

/-- The digest of a message under a key given as bytes. -/
@[specialize] def hmac (v : Variant W) (key message : Bytes) : Block v.size :=
  v.mac (v.macKey key) message

end Variant

end LedgerKit.Sha2
