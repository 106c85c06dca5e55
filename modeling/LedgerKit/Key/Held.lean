import LedgerKit.Key.Private

/-!
# Keys in use

The public key of a private key is computed when it is first asked for and remembered from then on.
A key that was just made, be it drawn, read or derived, remembers nothing.
-/

namespace LedgerKit

/-- A private key and its public key, if that has been asked for. -/
structure HeldKey where
  /-- The key itself. -/
  key : PrivateKey
  /-- The public key as it was computed. -/
  remembered : Option PublicKey := none
deriving DecidableEq

namespace HeldKey

/-- A key that was just made. -/
def ofKey (k : PrivateKey) : HeldKey := ⟨k, none⟩

/-- The public key: the one that is remembered or else the one that belongs to the key. -/
def publicKey (h : HeldKey) : PublicKey × HeldKey :=
  match h.remembered with
  | some p => (p, h)
  | none =>
    let p := h.key.publicKey
    (p, { h with remembered := some p })

/-- The child of a number. -/
def derive (h : HeldKey) (index : UInt32) : Except KeyError HeldKey :=
  (h.key.derive index).map ofKey

/-- The form shown in diagnostics, which keeps the secret. -/
def inspect (h : HeldKey) : String × HeldKey :=
  let (p, h) := h.publicKey
  (s!"PrivateKey \x7b public_key: {p.inspect}, derivable: {h.key.isDerivable}, .. \x7d", h)

end HeldKey

end LedgerKit
