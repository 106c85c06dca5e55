import LedgerKit.Key.Private
import LedgerKit.Proofs.PemSections

/-!
# Searching by offsets

A search that keeps an offset into the whole text can cut it only where that is not outside the text
and not inside a character.

* `round?_append` : a round cuts the text only where it may, and finds what a step of `firstKey?`
  finds.
* `search?_append` : so the search never goes wrong, and answers what `firstKey?` does.
* `firstKey?_located` : what a key's section is, and which other parts of the text do not matter.
-/

namespace LedgerKit

namespace Pem

open Text (IsFirstSplit byteLength sliceFrom? slice? find?)

variable {text rest before : List Char} {s : Section} {l : KeyLabel}

/-! ### Rounds -/

/-- How a round ends, in a text of so many bytes, if a step finds this section and this rest. -/
def Round.ofStep (total : Nat) : Option (Section × List Char) → Round
  | none => .done none
  | some (s, rest) =>
    (KeyLabel.ofChars? s.label).elim (.passed (total - byteLength rest)) fun l =>
      .done (some (l, s.chars))

/-- From the end of a first part on, a section is closed where it is in the rest. -/
theorem closeAt?_append (front fromLabel : List Char) :
    closeAt? (front ++ fromLabel) (byteLength front) =
      some ((close? fromLabel).map fun r =>
        (r.1.label, byteLength front + byteLength r.1.fromLabel)) := by
  have hfromLabel : sliceFrom? (front ++ fromLabel) (byteLength front) = some fromLabel :=
    Text.sliceFrom?_eq_some front rfl rfl
  cases hlabel : Text.splitAt? dashes fromLabel with
  | none => simp [closeAt?, close?, find?, hfromLabel, hlabel]
  | some r =>
    obtain ⟨label, afterLabel⟩ := r
    have hslice : slice? (front ++ fromLabel) (byteLength front)
        (byteLength front + byteLength label) = some label :=
      Text.slice?_eq_some front (dashes ++ afterLabel)
        (by simp [Text.eq_append_of_splitAt? hlabel]) rfl rfl
    cases hclose : Text.splitAt? (closeMarker label) fromLabel with
    | none => simp [closeAt?, close?, find?, hfromLabel, hlabel, hslice, hclose]
    | some r =>
      obtain ⟨labelAndInner, rest⟩ := r
      obtain ⟨inner, rfl⟩ := Section.label_prefix (Text.splitAt?_eq_some_iff.1 hlabel)
        (Text.splitAt?_eq_some_iff.1 hclose)
      simp [closeAt?, close?, find?, hfromLabel, hlabel, hslice, hclose, Section.fromLabel,
        Nat.add_assoc]

/-- A round cuts the text only where it may, and finds what a step of the search finds. -/
theorem round?_append (before ahead : List Char) :
    round? (before ++ ahead) (byteLength before) =
      some (.ofStep (byteLength (before ++ ahead)) (next? ahead)) := by
  have hahead : sliceFrom? (before ++ ahead) (byteLength before) = some ahead :=
    Text.sliceFrom?_eq_some before rfl rfl
  rw [next?_eq_bind]
  cases hbeginning : Text.splitAt? beginning ahead with
  | none => simp [round?, Round.ofStep, find?, hahead, hbeginning]
  | some r =>
    obtain ⟨skipped, fromLabel⟩ := r
    have hsplit := Text.eq_append_of_splitAt? hbeginning
    have hcloseAt := closeAt?_append (before ++ skipped ++ beginning) fromLabel
    have hfront : before ++ skipped ++ beginning ++ fromLabel = before ++ ahead := by simp [hsplit]
    rw [hfront, Text.byteLength_append, Text.byteLength_append] at hcloseAt
    cases hclose : close? fromLabel with
    | none => simp [round?, Round.ofStep, find?, hahead, hbeginning, hcloseAt, hclose]
    | some r =>
      obtain ⟨s, rest⟩ := r
      obtain ⟨-, rfl⟩ := close?_eq_some_iff.1 hclose
      have htext : before ++ ahead = before ++ skipped ++ (s.chars ++ rest) := by
        simp [hsplit, Section.chars_eq]
      -- The section ends where the text from its label on does, and what follows it begins there.
      have hstop : byteLength before + byteLength skipped + byteLength beginning +
          byteLength s.fromLabel = byteLength (before ++ ahead) - byteLength rest := by
        simp only [htext, Section.chars_eq, Text.byteLength_append]
        omega
      have hslice : slice? (before ++ ahead) (byteLength before + byteLength skipped)
          (byteLength (before ++ ahead) - byteLength rest) = some s.chars := by
        refine Text.slice?_eq_some (before ++ skipped) rest htext (by simp) ?_
        simp only [htext, Text.byteLength_append]
        omega
      simp only [round?, Round.ofStep, find?, hahead, hbeginning, hcloseAt, hclose, hstop, hslice,
        Option.map_some, Option.bind_eq_bind, Option.bind_some]
      cases KeyLabel.ofChars? s.label <;> rfl

/-! ### The whole search -/

theorem search?_of_done {offset : Nat} {found? : Option (KeyLabel × List Char)}
    (h : round? text offset = some (.done found?)) : search? text offset = some found? := by
  rw [search?]
  split <;> simp_all

theorem search?_of_passed {offset next : Nat} (h : round? text offset = some (.passed next)) :
    search? text offset = search? text next := by
  rw [search?]
  split <;> simp_all

/-- From the end of a first part on, a search by offsets answers what a search in the rest does. -/
theorem search?_append (before ahead : List Char) :
    search? (before ++ ahead) (byteLength before) =
      some ((firstKey? ahead).map fun r => (r.1, r.2.chars)) := by
  induction ahead using firstKey?_induction generalizing before with
  | done ahead hnext =>
    have hround := round?_append before ahead
    rw [hnext] at hround
    rw [search?_of_done hround, firstKey?_of_next?_eq_none hnext]
    rfl
  | found ahead s rest l hnext hl =>
    have hround := round?_append before ahead
    simp only [hnext, Round.ofStep, hl, Option.elim_some] at hround
    rw [search?_of_done hround, firstKey?_of_next? hnext, hl]
    rfl
  | passed ahead s rest hnext hl ih =>
    have hround := round?_append before ahead
    simp only [hnext, Round.ofStep, hl, Option.elim_none] at hround
    obtain ⟨-, skipped, hbeginning⟩ := next?_eq_some_iff.1 hnext
    -- The next round begins at the end of the section, with everything before it passed over.
    have hsplit : before ++ ahead = before ++ skipped ++ s.chars ++ rest := by
      simp [hbeginning.eq, Section.chars_eq]
    have hoffset : byteLength (before ++ ahead) - byteLength rest =
        byteLength (before ++ skipped ++ s.chars) := by
      rw [hsplit, Text.byteLength_append, Nat.add_sub_cancel]
    rw [search?_of_passed hround, hoffset, hsplit, ih, firstKey?_of_next? hnext, hl]
    rfl

/-! ### Passwords -/

/-- A document that can be read without a password is read with any. -/
theorem readPrivateKey_some {text : String} {document : Bytes}
    (h : readPrivateKey text none = .ok document) (password : String) :
    readPrivateKey text (some password) = .ok document := by
  simp only [readPrivateKey] at h ⊢
  split at h
  · simp at h
  · split at h
    · simp at h
    · split at h <;> simp_all

end Pem

/-- A key that can be read without a password is read with any. -/
theorem PrivateKey.ofPem_some {text : String} {k : PrivateKey} (h : ofPem text none = .ok k)
    (password : String) : ofPem text (some password) = .ok k := by
  simp only [ofPem] at h ⊢
  split at h
  · next document hread => rw [Pem.readPrivateKey_some hread]; exact h
  · simp at h

namespace Pem

open Text (IsFirstSplit byteLength)

/-- **Where the section of a key is found.**  The search by offsets, of which every round ends
further on, answers the same for every text and never cuts one where it may not.  The section has a
private key's label and both markers, of which the last is the first that closes it; what is
appended, lines without a first marker before the text, and a complete section with another label
before it do not change the answer, nor does a password change a key that is read without one. -/
theorem firstKey?_located (text : String) :
    search? text.toList 0 = some ((firstKey? text.toList).map fun r => (r.1, r.2.chars)) ∧
    (∀ offset next, round? text.toList offset = some (.passed next) →
      offset < next ∧ next ≤ byteLength text.toList) ∧
    (∀ l s, firstKey? text.toList = some (l, s) →
      s.label = l.chars ∧
      (∃ before after, text.toList = before ++ s.chars ++ after ∧
        openMarker l.chars <+: s.chars ∧
        IsFirstSplit (closeMarker l.chars) (s.fromLabel ++ after) (s.label ++ s.inner) after) ∧
      ∀ suffix, firstKey? (text.toList ++ suffix) = some (l, s)) ∧
    (∀ lines, ¬beginning <:+: lines → lines.getLast? = some '\n' →
      firstKey? (lines ++ text.toList) = firstKey? text.toList) ∧
    (∀ other : Section, other.IsComplete → (∀ l : KeyLabel, other.label ≠ l.chars) →
      firstKey? (other.chars ++ text.toList) = firstKey? text.toList) ∧
    ∀ k, PrivateKey.ofPem text none = .ok k →
      ∀ password, PrivateKey.ofPem text (some password) = .ok k := by
  refine ⟨search?_append [] text.toList, fun _ _ => lt_of_round?, ?_,
    fun _ hlines hlast => firstKey?_append_left hlines hlast _,
    fun _ hother hlabel => firstKey?_chars_append hother hlabel _,
    fun _ hk => PrivateKey.ofPem_some hk⟩
  intro l s hkey
  obtain ⟨hlabel, skipped, ahead, rest, htext, hnext⟩ := exists_of_firstKey? hkey
  obtain ⟨hcomplete, before, hbeginning⟩ := next?_eq_some_iff.1 hnext
  refine ⟨hlabel, ⟨skipped ++ before, rest, ?_, ?_, ?_⟩, firstKey?_append hkey⟩
  · simp [htext, hbeginning.eq, Section.chars_eq]
  · exact hlabel ▸ hcomplete.opened
  · exact hlabel ▸ hcomplete.closed.append rest

end Pem

end LedgerKit
