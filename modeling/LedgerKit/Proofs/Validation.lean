import LedgerKit.Proofs.Digest
import LedgerKit.Proofs.IdText

/-!
# Ids with the checksum of a ledger

The written form of an id is an address, so on every ledger the id has a checksum
(`EntityId.checksumOn`).  Computing it, writing the id with it and comparing it with the letters
that are attached are described by this one value; `EntityId.written_read_validated` says that the
three agree.
-/

namespace LedgerKit

namespace EntityId

variable (id : EntityId) (l : LedgerId)

theorem toList_toString : id.toString.toList = id.number.chars :=
  String.toList_ofList

theorem isAddress_toString : IsAddress id.toString.toList := by
  rw [toList_toString]
  exact id.number.isAddress_chars

/-- The checksum of the id on a ledger, whatever letters are attached to it. -/
def checksumOn : Checksum := .digest l (id.toString.toList.map addressDigit)

/-- The id with its checksum on a ledger attached. -/
def labelledFor : EntityId := ⟨id.number, some (id.checksumOn l)⟩

theorem compute_toString : Checksum.compute l id.toString = .ok (id.checksumOn l) :=
  Checksum.compute_eq_digest l id.isAddress_toString

theorem computeChecksum_some : id.computeChecksum (some l) = .ok (id.checksumOn l) :=
  id.compute_toString l

theorem toStringWithChecksum_some :
    id.toStringWithChecksum (some l) = .ok (id.labelledFor l).text := by
  unfold toStringWithChecksum
  rw [computeChecksum_some]
  rfl

/-- Attached letters pass if they are the checksum, and else the error names both. -/
theorem validateChecksum_some {id : EntityId} {c : Checksum} (h : id.checksum = some c) :
    id.validateChecksum (some l) =
      if id.checksumOn l = c then .ok () else .error (.checksumMismatch (id.checksumOn l) c) := by
  simp only [validateChecksum, h, compute_toString, bind, Except.bind]

/-- The letters attached to an id play no part in its checksum, so those that another mention of it
has are compared with the same ones. -/
theorem validateChecksum_lettered (k : Checksum) :
    validateChecksum ⟨id.number, some k⟩ (some l) =
      if k.letters = (id.checksumOn l).letters then .ok ()
      else .error (.checksumMismatch (id.checksumOn l) k) := by
  have hsame : checksumOn ⟨id.number, some k⟩ l = id.checksumOn l := rfl
  rw [validateChecksum_some l rfl, hsame]
  simp only [Checksum.letters_inj, eq_comm]

/-- **Writing, reading and checking agree.**  On every ledger an id has a checksum of five letters,
whatever letters it was given with.  The id is written with these letters, and what is written is
read as that id and passes.  The id written with any five letters is read as well; it passes if and
only if they are those of the checksum, and otherwise the error names the checksum and the letters.
Without a ledger there is no checksum, no text with it and no check. -/
theorem written_read_validated :
    (∃ expected : Checksum, id.computeChecksum (some l) = .ok expected ∧
      IsLetters expected.letters ∧
      (∃ text typed, id.toStringWithChecksum (some l) = .ok text ∧
        text = id.toString ++ "-" ++ String.ofList expected.letters ∧
        parse text = .ok typed ∧ typed.number = id.number ∧
        typed.validateChecksum (some l) = .ok ()) ∧
      ∀ letters, IsLetters letters → ∃ (typed : EntityId) (actual : Checksum),
        parse (id.toString ++ "-" ++ String.ofList letters) = .ok typed ∧
        typed.number = id.number ∧ actual.letters = letters ∧
        typed.validateChecksum (some l) =
          if letters = expected.letters then .ok ()
          else .error (.checksumMismatch expected actual)) ∧
    id.computeChecksum none = .error .unknownNetwork ∧
    id.toStringWithChecksum none = .error .unknownNetwork ∧
    id.validateChecksum none = .error .unknownNetwork := by
  refine ⟨⟨id.checksumOn l, id.computeChecksum_some l, isLetters_iff.2 ⟨_, rfl⟩, ?_, ?_⟩,
    rfl, rfl, rfl⟩
  · refine ⟨_, id.labelledFor l, id.toStringWithChecksum_some l, rfl, parse_eq_ok_iff.2 rfl, rfl,
      ?_⟩
    rw [labelledFor, validateChecksum_lettered, if_pos rfl]
  · intro letters hletters
    obtain ⟨actual, rfl⟩ := isLetters_iff.1 hletters
    exact ⟨⟨id.number, some actual⟩, actual, parse_eq_ok_iff.2 rfl, rfl, rfl,
      id.validateChecksum_lettered l actual⟩

end EntityId

end LedgerKit
