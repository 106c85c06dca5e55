import LedgerKit.Key.WordList
import LedgerKit.Proofs.Hexadecimal
import Mathlib.Data.List.Nodup

/-!
# Words and their places

The word list is in alphabetical order and made of lower-case letters.  This is checked once, word
by word, on the bytes of the words (`ordered_englishWords`); so no word stands at two places.

* `placeOf?_eq_some_iff` : a place is that of a word if and only if the word stands there.
* `IsPlain.wordAt` : what stands in the list is made of lower-case letters.
-/

namespace LedgerKit

/-! ### Words of lower-case letters -/

/-- A word of one or more letters of ASCII in lower case. -/
def IsPlain (w : String) : Prop := w ≠ "" ∧ ∀ c ∈ w.toList, c.isLower = true

theorem isLower_iff {c : Char} : c.isLower = true ↔ 97 ≤ c.toNat ∧ c.toNat ≤ 122 := by
  have hrange : c.isLower = (decide (97 ≤ c.toNat) && decide (c.toNat ≤ 122)) := rfl
  rw [hrange, Bool.and_eq_true, decide_eq_true_eq, decide_eq_true_eq]

/-- The bytes of a word as it is stored, which are its UTF-8 bytes (`spelling_eq`). -/
def spelling (w : String) : Bytes := w.toByteArray.data.toList

theorem spelling_eq (w : String) : spelling w = Text.utf8 w := by
  have hbytes : (String.ofList w.toList).toByteArray.data.toList = Text.utf8 w := by
    rw [String.toByteArray_ofList, List.utf8Encode, List.toList_data_toByteArray]
    rfl
  rwa [String.ofList_toList] at hbytes

/-- The byte of a lower-case letter. -/
def isLetterByte (b : UInt8) : Bool := 97 ≤ b.toNat && b.toNat ≤ 122

theorem isPlain_of_spelling {w : String} (hne : w ≠ "") (h : (spelling w).all isLetterByte = true) :
    IsPlain w := by
  rw [spelling_eq, List.all_eq_true] at h
  have hascii : ∀ c ∈ w.toList, c.toNat < 0x80 := by
    apply Text.ascii_of_utf8Chars
    intro b hb
    have hletter := h b hb
    simp only [isLetterByte, Bool.and_eq_true, decide_eq_true_eq] at hletter
    omega
  refine ⟨hne, fun c hc => ?_⟩
  have hletter := h c.toUInt8 (by
    rw [Text.utf8, Text.utf8Chars_of_ascii hascii]
    exact List.mem_map_of_mem hc)
  have hbyte : c.toUInt8.toNat = c.toNat % 256 := rfl
  have hc := hascii c hc
  simp only [isLetterByte, Bool.and_eq_true, decide_eq_true_eq, hbyte] at hletter
  rw [isLower_iff]
  omega

/-! ### The list in order -/

/-- The words are made of letters, and each of them comes after the one before it. -/
def isOrdered (last : Bytes) : List String → Bool
  | [] => true
  | w :: ws =>
    decide (last < spelling w) && (spelling w).all isLetterByte && isOrdered (spelling w) ws

theorem ordered_englishWords : isOrdered [] englishWords = true := by decide +kernel

theorem length_englishWords : englishWords.length = wordCount := by decide +kernel

theorem of_mem_of_isOrdered {last : Bytes} {ws : List String} (h : isOrdered last ws = true) :
    ∀ w ∈ ws, last < spelling w ∧ (spelling w).all isLetterByte = true := by
  induction ws generalizing last with
  | nil => simp
  | cons w ws ih =>
    simp only [isOrdered, Bool.and_eq_true, decide_eq_true_eq] at h
    obtain ⟨⟨hlast, hletters⟩, hrest⟩ := h
    intro v hv
    rcases List.mem_cons.1 hv with rfl | hv
    · exact ⟨hlast, hletters⟩
    · obtain ⟨hlt, hv⟩ := ih hrest v hv
      exact ⟨List.lt_trans hlast hlt, hv⟩

theorem nodup_of_isOrdered {last : Bytes} {ws : List String} (h : isOrdered last ws = true) :
    ws.Nodup := by
  induction ws generalizing last with
  | nil => exact List.nodup_nil
  | cons w ws ih =>
    simp only [isOrdered, Bool.and_eq_true] at h
    refine List.nodup_cons.2 ⟨fun hw => ?_, ih h.2⟩
    exact List.lt_irrefl _ (of_mem_of_isOrdered h.2 w hw).1

theorem isPlain_of_mem_englishWords {w : String} (hw : w ∈ englishWords) : IsPlain w := by
  obtain ⟨hlt, hletters⟩ := of_mem_of_isOrdered ordered_englishWords w hw
  refine isPlain_of_spelling ?_ hletters
  rintro rfl
  exact List.not_lt_nil _ hlt

/-! ### Places -/

theorem getElem_englishWords {p : ℕ} (h : p < englishWords.length) :
    englishWords[p] = wordAt p := by
  rw [wordAt, List.getD_eq_getElem?_getD, List.getElem?_eq_getElem h, Option.getD_some]

theorem IsPlain.wordAt {p : ℕ} (h : p < wordCount) : IsPlain (wordAt p) := by
  rw [← length_englishWords] at h
  rw [← getElem_englishWords h]
  exact isPlain_of_mem_englishWords (List.getElem_mem h)

theorem placeOf?_eq_some_iff {w : String} {p : ℕ} :
    placeOf? w = some p ↔ p < wordCount ∧ wordAt p = w := by
  have hnodup := nodup_of_isOrdered ordered_englishWords
  rw [placeOf?, List.findIdx?_eq_some_iff_getElem, ← length_englishWords]
  constructor
  · rintro ⟨hp, hw, -⟩
    exact ⟨hp, (getElem_englishWords hp).symm.trans (beq_iff_eq.1 hw)⟩
  · rintro ⟨hp, rfl⟩
    refine ⟨hp, beq_iff_eq.2 (getElem_englishWords hp), fun q hq hword => ?_⟩
    rw [← getElem_englishWords hp, beq_iff_eq, hnodup.getElem_inj_iff] at hword
    omega

theorem placeOf?_wordAt {p : ℕ} (h : p < wordCount) : placeOf? (wordAt p) = some p :=
  placeOf?_eq_some_iff.2 ⟨h, rfl⟩

/-- Only words of lower-case letters have a place. -/
theorem isPlain_of_placeOf? {w : String} {p : ℕ} (h : placeOf? w = some p) : IsPlain w := by
  obtain ⟨hp, rfl⟩ := placeOf?_eq_some_iff.1 h
  exact IsPlain.wordAt hp

end LedgerKit
