import LedgerKit.Der.Key

/-!
# Documents, written and read

An element with less than 128 bytes of content is written as its tag, one byte for its length and
its content.  What is written for some elements is cut into the same elements
(`parse?_flatMap_bytes`), so the documents of keys, which are nested sequences of such elements, are
read back (`decodePrivate?_encodePrivate`, `decodePublic?_encodePublic`).
-/

namespace LedgerKit.Der

namespace Element

/-- The bytes of an element with a length of one byte. -/
def bytes (e : Element) : Bytes := e.tag :: UInt8.ofNat e.content.length :: e.content

/-- The element has a tag that may occur, and its length takes one byte. -/
def IsShort (e : Element) : Prop := isTag e.tag = true ∧ e.content.length < 0x80

/-- The sequence of some elements. -/
def sequenceOf (es : List Element) : Element := ⟨sequenceTag, es.flatMap bytes⟩

end Element

open Element

variable {e : Element} {es : List Element}

theorem readLength?_ofNat {n : Nat} (h : n < 0x80) (rest : Bytes) :
    readLength? (UInt8.ofNat n :: rest) = some (n, rest) := by
  have hn : (UInt8.ofNat n).toNat = n := by
    rw [UInt8.toNat_ofNat']
    omega
  have hlt : UInt8.ofNat n < 0x80 := by
    rw [UInt8.lt_iff_toNat_lt, hn]
    exact h
  simp only [readLength?, if_pos hlt, hn]

theorem readElement?_bytes (h : e.IsShort) (rest : Bytes) :
    readElement? (e.bytes ++ rest) = some (e, rest) := by
  simp [Element.bytes, readElement?, h.1, readLength?_ofNat h.2]

/-- Any number of steps is enough that is not below the number of bytes. -/
theorem parseAtMost?_flatMap_bytes (h : ∀ e ∈ es, e.IsShort) {fuel : Nat}
    (hfuel : (es.flatMap bytes).length ≤ fuel) :
    parseAtMost? fuel (es.flatMap bytes) = some es := by
  induction es generalizing fuel with
  | nil => cases fuel <;> rfl
  | cons e es ih =>
    cases fuel with
    | zero => simp [Element.bytes] at hfuel
    | succ fuel =>
      have hrest : (es.flatMap bytes).length ≤ fuel := by
        simp only [List.flatMap_cons, List.length_append, Element.bytes, List.length_cons] at hfuel
        omega
      have hread := readElement?_bytes (h e List.mem_cons_self) (es.flatMap bytes)
      rw [List.flatMap_cons]
      rw [parseAtMost?, hread]
      · simp [ih (fun x hx => h x (List.mem_cons_of_mem e hx)) hrest]
      · simp [Element.bytes]

theorem parse?_flatMap_bytes (h : ∀ e ∈ es, e.IsShort) : parse? (es.flatMap bytes) = some es :=
  parseAtMost?_flatMap_bytes h (Nat.le_refl _)

theorem sequence?_sequence (h : ∀ e ∈ es, e.IsShort) : (sequenceOf es).sequence? = some es := by
  simp [sequenceOf, sequence?, parse?_flatMap_bytes h]

theorem document?_sequence (h : ∀ e ∈ es, e.IsShort) (hshort : (sequenceOf es).IsShort) :
    document? (sequenceOf es).bytes = some es := by
  have hone : parse? ([sequenceOf es].flatMap bytes) = some [sequenceOf es] :=
    parse?_flatMap_bytes (by simpa using hshort)
  rw [List.flatMap_singleton] at hone
  rw [document?, hone]
  exact sequence?_sequence h

/-! ### The documents of keys -/

/-- The element that names the algorithm. -/
def algorithm : Element := sequenceOf [⟨objectTag, ed25519Object⟩]

theorem isEd25519_algorithm : isEd25519 algorithm = true := by decide

/-- The elements of a private key. -/
def privateElements (secret : Block 32) : List Element :=
  [⟨integerTag, [0]⟩, algorithm, ⟨bytesTag, 0x04 :: 0x20 :: secret.toBytes⟩]

/-- The elements of a public key. -/
def publicElements (point : Block 32) : List Element :=
  [algorithm, ⟨bitsTag, 0x00 :: point.toBytes⟩]

theorem encodePrivate_eq (secret : Block 32) :
    encodePrivate secret = (sequenceOf (privateElements secret)).bytes := by
  simp [encodePrivate, privatePrefix, privateElements, algorithm, ed25519Object, sequenceOf,
    Element.bytes, sequenceTag, integerTag, objectTag, bytesTag]

theorem encodePublic_eq (point : Block 32) :
    encodePublic point = (sequenceOf (publicElements point)).bytes := by
  simp [encodePublic, publicPrefix, publicElements, algorithm, ed25519Object, sequenceOf,
    Element.bytes, sequenceTag, objectTag, bitsTag]

theorem isShort_privateElements (secret : Block 32) : ∀ e ∈ privateElements secret, e.IsShort := by
  have hversion : IsShort ⟨integerTag, [0]⟩ := ⟨by decide, by decide⟩
  have halgorithm : algorithm.IsShort := ⟨by decide, by decide⟩
  have hkey : IsShort ⟨bytesTag, 0x04 :: 0x20 :: secret.toBytes⟩ := ⟨rfl, by simp⟩
  simp [privateElements, hversion, halgorithm, hkey]

theorem isShort_publicElements (point : Block 32) : ∀ e ∈ publicElements point, e.IsShort := by
  have halgorithm : algorithm.IsShort := ⟨by decide, by decide⟩
  have hkey : IsShort ⟨bitsTag, 0x00 :: point.toBytes⟩ := ⟨rfl, by simp⟩
  simp [publicElements, halgorithm, hkey]

theorem document?_encodePrivate (secret : Block 32) :
    document? (encodePrivate secret) = some (privateElements secret) := by
  have hlength : (sequenceOf (privateElements secret)).content.length < 0x80 := by
    simp [privateElements, algorithm, ed25519Object, sequenceOf, Element.bytes]
  rw [encodePrivate_eq]
  exact document?_sequence (isShort_privateElements secret) ⟨rfl, hlength⟩

theorem isShort_publicSequence (point : Block 32) : (sequenceOf (publicElements point)).IsShort :=
  ⟨rfl, by simp [publicElements, algorithm, ed25519Object, sequenceOf, Element.bytes]⟩

theorem document?_encodePublic (point : Block 32) :
    document? (encodePublic point) = some (publicElements point) := by
  rw [encodePublic_eq]
  exact document?_sequence (isShort_publicElements point) (isShort_publicSequence point)

/-- **A private key is read back from its document.** -/
theorem decodePrivate?_encodePrivate (secret : Block 32) :
    decodePrivate? (encodePrivate secret) = some secret := by
  have hversion : Element.number? 2 ⟨integerTag, [0]⟩ = some 0 := by decide
  unfold decodePrivate?
  rw [document?_encodePrivate]
  simp [privateElements, hversion, isEd25519_algorithm, isTail, secret?, content?]

/-- **A public key is read back from its document.** -/
theorem decodePublic?_encodePublic (point : Block 32) :
    decodePublic? (encodePublic point) = some point := by
  unfold decodePublic?
  rw [document?_encodePublic]
  simp [publicElements, isEd25519_algorithm, content?]

end LedgerKit.Der
