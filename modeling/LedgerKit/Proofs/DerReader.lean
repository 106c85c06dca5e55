import LedgerKit.Proofs.DerDocument

/-!
# Documents that are read

Lengths have one spelling, so an element with less than 128 bytes of content is read from the bytes
that are written for it and from no others (`eq_bytes_of_readElement?`), and so are lists of such
elements (`eq_flatMap_of_parse?`).  The document of a public key has no choice anywhere: it is built
of such elements, and nothing may be added to it.

* `decodePublic?_eq_some_iff` : a public key is read from its document only.
-/

namespace LedgerKit.Der

open Element

variable {e : Element} {es : List Element} {bs rest : Bytes} {n : Nat}

/-- A short length is read from one byte, since more bytes are for long ones only. -/
theorem eq_cons_of_readLength? (h : readLength? bs = some (n, rest)) (hn : n < 0x80) :
    bs = UInt8.ofNat n :: rest := by
  cases bs with
  | nil => cases h
  | cons b bs =>
    simp only [readLength?] at h
    split at h
    · obtain ⟨rfl, rfl⟩ := Prod.mk.inj (Option.some.inj h)
      rw [UInt8.ofNat_toNat]
    · split at h
      · next hlong =>
        obtain ⟨rfl, rfl⟩ := Prod.mk.inj (Option.some.inj h)
        exact absurd hlong.2.2.2.1 (Nat.not_le.2 hn)
      · cases h

theorem eq_bytes_of_readElement? (h : readElement? bs = some (e, rest))
    (hshort : e.content.length < 0x80) : bs = e.bytes ++ rest := by
  cases bs with
  | nil => cases h
  | cons tag bs =>
    simp only [readElement?] at h
    split at h
    · split at h
      · next n after hlength =>
        split at h
        · next hle =>
          obtain ⟨rfl, rfl⟩ := Prod.mk.inj (Option.some.inj h)
          have hn : (after.take n).length = n := List.length_take_of_le hle
          rw [hn] at hshort
          rw [eq_cons_of_readLength? hlength hshort, Element.bytes, hn]
          simp
        · cases h
      · cases h
    · cases h

theorem eq_flatMap_of_parseAtMost? {fuel : Nat} (h : parseAtMost? fuel bs = some es)
    (hshort : ∀ e ∈ es, e.content.length < 0x80) : bs = es.flatMap bytes := by
  induction fuel generalizing bs es with
  | zero =>
    cases bs with
    | nil =>
      cases h
      rfl
    | cons b bs => cases h
  | succ fuel ih =>
    cases bs with
    | nil =>
      cases h
      rfl
    | cons b bs =>
      simp only [parseAtMost?] at h
      split at h
      · next e rest hread =>
        obtain ⟨es', hes', rfl⟩ := Option.map_eq_some_iff.1 h
        obtain ⟨he, hes⟩ := List.forall_mem_cons.1 hshort
        rw [eq_bytes_of_readElement? hread he, ih hes' hes, List.flatMap_cons]
      · cases h

/-- **Elements with little content are read from what is written for them.** -/
theorem eq_flatMap_of_parse? (h : parse? bs = some es)
    (hshort : ∀ e ∈ es, e.content.length < 0x80) : bs = es.flatMap bytes :=
  eq_flatMap_of_parseAtMost? h hshort

theorem eq_sequenceOf_of_sequence? (h : e.sequence? = some es)
    (hshort : ∀ e ∈ es, e.content.length < 0x80) : e = sequenceOf es := by
  obtain ⟨tag, content⟩ := e
  unfold sequence? at h
  split at h
  · next htag =>
    have htag : tag = sequenceTag := htag
    rw [htag, sequenceOf, ← eq_flatMap_of_parse? h hshort]
  · cases h

/-! ### Public keys -/

theorem eq_algorithm_of_isEd25519 (h : isEd25519 e = true) : e = algorithm :=
  eq_sequenceOf_of_sequence? (beq_iff_eq.1 h) (by decide)

theorem eq_of_content? {tag : UInt8} {content : Bytes} (h : e.content? tag = some content) :
    e = ⟨tag, content⟩ := by
  obtain ⟨t, c⟩ := e
  unfold content? at h
  split at h
  · next htag =>
    have htag : t = tag := htag
    rw [htag, ← Option.some.inj h]
  · cases h

/-- The elements of a document that a public key is read from. -/
theorem document?_of_decodePublic? {point : Block 32} (h : decodePublic? bs = some point) :
    document? bs = some (publicElements point) := by
  unfold decodePublic? at h
  split at h
  · next named key hdocument =>
    split at h
    · next hnamed =>
      split at h
      · next bits hkey =>
        have hpoint := Block.ofBytes?_eq_some_iff.1 h
        rw [hdocument, eq_algorithm_of_isEd25519 hnamed, eq_of_content? hkey, publicElements,
          hpoint]
      · cases h
    · cases h
  · cases h

/-- **A public key is read from its document and from nothing else.** -/
theorem decodePublic?_eq_some_iff {point : Block 32} :
    decodePublic? bs = some point ↔ bs = encodePublic point := by
  constructor
  · intro h
    have hdocument := document?_of_decodePublic? h
    have hparts : ∀ e ∈ publicElements point, e.content.length < 0x80 :=
      fun e he => (isShort_publicElements point e he).2
    unfold document? at hdocument
    split at hdocument
    · next e hone =>
      obtain rfl := eq_sequenceOf_of_sequence? hdocument hparts
      have hshort : ∀ e ∈ [sequenceOf (publicElements point)], e.content.length < 0x80 := by
        simpa using (isShort_publicSequence point).2
      rw [encodePublic_eq, eq_flatMap_of_parse? hone hshort, List.flatMap_singleton]
    · cases hdocument
  · rintro rfl
    exact decodePublic?_encodePublic point

end LedgerKit.Der
