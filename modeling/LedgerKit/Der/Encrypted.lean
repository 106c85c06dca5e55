import LedgerKit.Cipher.Aes
import LedgerKit.Der.Element
import LedgerKit.Hash.Scrypt

/-!
# Encrypted private keys

The document of an encrypted private key says how a key is drawn from the password and with which
cipher the rest is encrypted.  `Encrypted.ofBytes?` reads it, `Encrypted.decrypt?` undoes it.  A
wrong password shows in padding or in a content that is no sequence.
-/

namespace LedgerKit.Der

/-- The hashes that a password can be stretched with. -/
inductive Prf where
  | sha224
  | sha256
  | sha384
  | sha512
deriving DecidableEq, Repr

/-- How a key is drawn from a password. -/
inductive Kdf where
  /-- By a chain of keyed digests. -/
  | pbkdf2 (salt : Bytes) (rounds : Nat) (prf : Prf)
  /-- By `p` mixtures through `n` runs of `2 r` cells. -/
  | scrypt (salt : Bytes) (n r p : Nat)
deriving DecidableEq, Repr

/-- The key of `size` bytes for a password. -/
def Kdf.derive (password : Bytes) (size : Nat) : Kdf → Block size
  | .pbkdf2 salt rounds .sha224 => Sha2.sha224.pbkdf2 password salt rounds size
  | .pbkdf2 salt rounds .sha256 => Sha2.sha256.pbkdf2 password salt rounds size
  | .pbkdf2 salt rounds .sha384 => Sha2.sha384.pbkdf2 password salt rounds size
  | .pbkdf2 salt rounds .sha512 => Sha2.sha512.pbkdf2 password salt rounds size
  | .scrypt salt n r p => Scrypt.derive password salt n r p size

/-- An encrypted document and how to decrypt it. -/
structure Encrypted where
  /-- How the key is drawn. -/
  kdf : Kdf
  /-- The bytes in the key of the cipher. -/
  keySize : Nat
  /-- The block before the first. -/
  iv : Block 16
  /-- The encrypted blocks. -/
  ciphertext : Bytes
deriving DecidableEq

/-- The object identifier 1.2.840.113549.1.5.13, of the scheme. -/
def schemeObject : Bytes := [0x2a, 0x86, 0x48, 0x86, 0xf7, 0x0d, 0x01, 0x05, 0x0d]

/-- The object identifier 1.2.840.113549.1.5.12. -/
def pbkdf2Object : Bytes := [0x2a, 0x86, 0x48, 0x86, 0xf7, 0x0d, 0x01, 0x05, 0x0c]

/-- The object identifier 1.3.6.1.4.1.11591.4.11. -/
def scryptObject : Bytes := [0x2b, 0x06, 0x01, 0x04, 0x01, 0xda, 0x47, 0x04, 0x0b]

/-- The hash of an object identifier 1.2.840.113549.2.8 to 11. -/
def Prf.ofObject? : Bytes → Option Prf
  | [0x2a, 0x86, 0x48, 0x86, 0xf7, 0x0d, 0x02, 0x08] => some .sha224
  | [0x2a, 0x86, 0x48, 0x86, 0xf7, 0x0d, 0x02, 0x09] => some .sha256
  | [0x2a, 0x86, 0x48, 0x86, 0xf7, 0x0d, 0x02, 0x0a] => some .sha384
  | [0x2a, 0x86, 0x48, 0x86, 0xf7, 0x0d, 0x02, 0x0b] => some .sha512
  | _ => none

/-- The size of the key of a cipher with object identifier 2.16.840.1.101.3.4.1.2, 22 or 42. -/
def cipherKeySize? : Bytes → Option Nat
  | [0x60, 0x86, 0x48, 0x01, 0x65, 0x03, 0x04, 0x01, 0x02] => some 16
  | [0x60, 0x86, 0x48, 0x01, 0x65, 0x03, 0x04, 0x01, 0x16] => some 24
  | [0x60, 0x86, 0x48, 0x01, 0x65, 0x03, 0x04, 0x01, 0x2a] => some 32
  | _ => none

/-- The hash named by an element that must give it empty parameters. -/
def Prf.ofElement? (e : Element) : Option Prf :=
  match e.sequence? with
  | some [object, parameters] => do
    let prf ← Prf.ofObject? (← object.content? objectTag)
    if parameters = ⟨nullTag, []⟩ then some prf else none
  | _ => none

/-- The element is the number of bytes in the key. -/
def isKeySize (size : Nat) (e : Element) : Bool := e.number? UInt16.size == some size

/-- How a key of `size` bytes is drawn, from the parameters of PBKDF2.  The hash has to be named,
for the one that is meant otherwise is not supported. -/
def Kdf.ofPbkdf2? (size : Nat) : List Element → Option Kdf
  | [salt, rounds, prf] => do
    return .pbkdf2 (← salt.content? bytesTag) (← rounds.number? UInt32.size) (← Prf.ofElement? prf)
  | [salt, rounds, keySize, prf] => do
    let kdf :=
      .pbkdf2 (← salt.content? bytesTag) (← rounds.number? UInt32.size) (← Prf.ofElement? prf)
    if isKeySize size keySize then some kdf else none
  | _ => none

/-- The parameters of scrypt are in range: `n` is a power of two not too large for `r`, and the
stores fit an address of 64 bits. -/
def isScryptRange (n r p : Nat) : Bool :=
  n != 0 && 1 <<< n.log2 == n && r != 0 && p != 0 && n.log2 < 16 * r && r * p < 1 <<< 30
    && 128 * r * n < UInt64.size && 128 * r * p < UInt64.size

/-- How a key of `size` bytes is drawn, from the parameters of scrypt. -/
def Kdf.ofScrypt? (size : Nat) : List Element → Option Kdf
  | salt :: n :: r :: p :: keySize => do
    let salt ← salt.content? bytesTag
    let n ← n.number? UInt64.size
    let r ← r.number? UInt16.size
    let p ← p.number? UInt16.size
    if keySize.length ≤ 1 && keySize.all (isKeySize size) && isScryptRange n r p then
      some (.scrypt salt n r p)
    else none
  | _ => none

/-- How a key of `size` bytes is drawn. -/
def Kdf.ofElement? (size : Nat) (e : Element) : Option Kdf :=
  match e.sequence? with
  | some [object, parameters] => do
    let object ← object.content? objectTag
    let parameters ← parameters.sequence?
    if object = pbkdf2Object then Kdf.ofPbkdf2? size parameters
    else if object = scryptObject then Kdf.ofScrypt? size parameters
    else none
  | _ => none

/-- The size of the key and the initial block of the cipher that an element names. -/
def cipher? (e : Element) : Option (Nat × Block 16) :=
  match e.sequence? with
  | some [object, iv] => do
    return (← cipherKeySize? (← object.content? objectTag),
      ← Block.ofBytes? 16 (← iv.content? bytesTag))
  | _ => none

namespace Encrypted

/-- Reads the document of an encrypted private key. -/
def ofBytes? (bs : Bytes) : Option Encrypted :=
  match document? bs with
  | some [scheme, ciphertext] =>
    match scheme.sequence? with
    | some [object, parameters] =>
      match parameters.sequence? with
      | some [kdf, cipher] => do
        let (keySize, iv) ← cipher? cipher
        let kdf ← Kdf.ofElement? keySize kdf
        let ciphertext ← ciphertext.content? bytesTag
        if object = ⟨objectTag, schemeObject⟩ then some ⟨kdf, keySize, iv, ciphertext⟩ else none
      | _ => none
    | _ => none
  | _ => none

/-- Decrypts the document, which must turn out to be one sequence. -/
def decrypt? (e : Encrypted) (password : Bytes) : Option Bytes := do
  let key := e.kdf.derive password e.keySize
  let plaintext ← Aes.decryptCbc? key.toBytes e.iv.toBytes e.ciphertext
  if isSequence plaintext then some plaintext else none

end Encrypted

end LedgerKit.Der
