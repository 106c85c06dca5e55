import LedgerKit.Der.Element

/-!
# Ed25519 keys as documents

A private key is written as 16 fixed bytes and its secret (`encodePrivate`), a public key as 12
fixed bytes and its point (`encodePublic`).  Reading accepts every document of the two formats that
names this algorithm: a private key may come with attributes and, from version 1 on, with its public
key, all of which are dropped.
-/

namespace LedgerKit.Der

/-- The object identifier of the algorithm, 1.3.101.112. -/
def ed25519Object : Bytes := [0x2b, 0x65, 0x70]

/-- What stands before the secret of a private key. -/
def privatePrefix : Bytes :=
  [0x30, 0x2e, 0x02, 0x01, 0x00, 0x30, 0x05, 0x06, 0x03, 0x2b, 0x65, 0x70, 0x04, 0x22, 0x04, 0x20]

/-- What stands before the point of a public key. -/
def publicPrefix : Bytes :=
  [0x30, 0x2a, 0x30, 0x05, 0x06, 0x03, 0x2b, 0x65, 0x70, 0x03, 0x21, 0x00]

/-- The document of a private key. -/
def encodePrivate (secret : Block 32) : Bytes := privatePrefix ++ secret.toBytes

/-- The document of a public key. -/
def encodePublic (point : Block 32) : Bytes := publicPrefix ++ point.toBytes

/-- The element names the algorithm and gives it no parameters. -/
def isEd25519 (e : Element) : Bool :=
  e.sequence? == some [⟨objectTag, ed25519Object⟩]

/-- The secret within the string of bytes that holds it. -/
def secret? (e : Element) : Option (Block 32) :=
  match e.content? bytesTag with
  | some (0x04 :: 0x20 :: bs) => Block.ofBytes? 32 bs
  | _ => none

/-- The element is a public key that comes with a private one. -/
def isEnclosedPublic (e : Element) : Bool :=
  match e.content? 0x81 with
  | some (0x00 :: bs) => bs.length == 32
  | _ => false

/-- An element that may end a private key: one of the context's own that holds one element. -/
def isExtension (e : Element) : Bool :=
  e.isContext && e.isConstructed && (parse? e.content).any fun es => es.length == 1

/-- What may follow the secret in a private key: attributes, then the public key if and only if the
version calls for it, then extensions. -/
def isTail (withPublic : Bool) (es : List Element) : Bool :=
  match es.dropWhile fun e => e.isContext && e.number == 0 with
  | [] => !withPublic
  | e :: rest =>
    if e.isContext && e.number == 1 then withPublic && isEnclosedPublic e && rest.all isExtension
    else !withPublic && (e :: rest).all isExtension

/-- The secret of a private key's document. -/
def decodePrivate? (bs : Bytes) : Option (Block 32) :=
  match document? bs with
  | some (version :: algorithm :: key :: tail) => do
    let v ← version.number? 2
    if isEd25519 algorithm && isTail (v == 1) tail then secret? key else none
  | _ => none

/-- The point of a public key's document, of which it is not checked that it is one. -/
def decodePublic? (bs : Bytes) : Option (Block 32) :=
  match document? bs with
  | some [algorithm, key] =>
    if isEd25519 algorithm then
      match key.content? bitsTag with
      | some (0x00 :: bs) => Block.ofBytes? 32 bs
      | _ => none
    else none
  | _ => none

end LedgerKit.Der
