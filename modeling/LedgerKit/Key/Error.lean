import LedgerKit.Bytes.Hex

/-!
# What can be wrong with key material
-/

namespace LedgerKit

/-- Why something is no mnemonic phrase. -/
inductive MnemonicError where
  /-- A phrase of this many words. -/
  | wrongWordCount (count : Nat)
  /-- The word at this place, counted from zero, is not in the list. -/
  | unknownWord (index : Nat)
  /-- The words carry other check bits than their entropy has. -/
  | wrongChecksum
  /-- Entropy of this many bits. -/
  | wrongEntropySize (bits : Nat)
deriving DecidableEq, Repr

/-- The words for an error. -/
def MnemonicError.message : MnemonicError → String
  | .wrongWordCount count =>
    s!"mnemonic has an invalid word count: {count}. Word count must be 12, 15, 18, 21, or 24"
  | .unknownWord index => s!"mnemonic contains an unknown word (word {index})"
  | .wrongChecksum => "the mnemonic has an invalid checksum"
  | .wrongEntropySize bits =>
    s!"entropy was not between 128-256 bits or not a multiple of 32 bits: {bits} bits"

/-- Why something is no key or signature, or why a key cannot do what it is asked for. -/
inductive KeyError where
  /-- The text of a key is not hexadecimal. -/
  | notHex (cause : Hex.Error)
  /-- A public key of this many bytes. -/
  | wrongPublicKeyLength (got : Nat)
  /-- The bytes of a public key are no point of the curve. -/
  | notAPoint
  /-- A text holds no section with a private key. -/
  | noPrivateKeySection
  /-- A private key is encrypted and there is no password. -/
  | passwordNeeded
  /-- A document or a section is malformed, of an unsupported kind, or cannot be decrypted. -/
  | malformedDocument
  /-- The key has no chain code. -/
  | notDerivable
  /-- A phrase or its entropy is not valid. -/
  | invalidMnemonic (cause : MnemonicError)
  /-- A signature of this many bytes. -/
  | wrongSignatureLength (got : Nat)
deriving DecidableEq, Repr

/-- The words for an error.  What is wrong inside a document is not told. -/
def KeyError.message? : KeyError → Option String
  | .notHex cause => some s!"bad key format: {cause.message}"
  | .wrongPublicKeyLength got => some s!"bad key format: expected 32 public key bytes, got {got}"
  | .notAPoint => some "bad key format: not a valid Ed25519 point"
  | .noPrivateKeySection =>
    some "bad key format: no PRIVATE KEY or ENCRYPTED PRIVATE KEY section found"
  | .passwordNeeded => some "bad key format: private key is encrypted but no password was given"
  | .malformedDocument => none
  | .notDerivable => some "this private key does not support derivation"
  | .invalidMnemonic cause => some s!"invalid mnemonic phrase: {cause.message}"
  | .wrongSignatureLength got => some s!"signatures are 64 bytes, got {got}"

end LedgerKit
