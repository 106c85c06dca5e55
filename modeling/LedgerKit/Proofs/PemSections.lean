import LedgerKit.Pem.Section
import LedgerKit.Proofs.Occurrences

/-!
# The first key in a text

The search for a key goes from section to section.  What one step finds is a complete section, and
the step finds the first of them; so what stands before a complete section with another label, or
after the section of the key, does not matter.

* `close?_eq_some_iff` : a section is closed if it is complete, and in no other way.
* `next?_eq_some_iff` : a step finds the complete section whose first marker is the first of all.
* `exists_of_firstKey?` : the section of a key is found by one such step.
* `firstKey?_append` : a key that is found is found whatever is appended.
* `firstKey?_append_left`, `firstKey?_chars_append` : lines without a first marker and complete
  sections with other labels can be prepended.
-/

namespace LedgerKit.Pem

open Text (IsFirstSplit)

variable {text rest before : List Char} {s : Section} {l : KeyLabel}

/-! ### Complete sections -/

theorem closeMarker_eq (label : List Char) :
    closeMarker label = dashes ++ ("END ".toList ++ label ++ dashes) := by
  have hending : ending = dashes ++ "END ".toList := by decide
  rw [closeMarker, hending]
  simp only [List.append_assoc]

namespace Section

/-- The text of a section from its label on. -/
def fromLabel (s : Section) : List Char := s.label ++ s.inner ++ closeMarker s.label

theorem chars_eq (s : Section) : s.chars = beginning ++ s.fromLabel := by
  simp only [chars, fromLabel, List.append_assoc]

/-- The section has both markers, and no earlier ones.  Its label ends where dashes stand first, so
it neither holds the five nor ends with one.  The dashes of the first marker may be those that the
last one begins with. -/
structure IsComplete (s : Section) : Prop where
  /-- The dashes that end a marker do not stand in the label. -/
  label_plain : ¬dashes <:+: s.label
  /-- Nor does the label end with a dash, which would be taken for the first of the five. -/
  label_last : s.label.getLast? ≠ some '-'
  /-- The section begins with its first marker. -/
  opened : openMarker s.label <+: s.chars
  /-- Its last marker is not found before its end. -/
  closed : IsFirstSplit (closeMarker s.label) s.fromLabel (s.label ++ s.inner) []

/-- The label of a complete section ends where dashes stand first. -/
theorem IsComplete.exists_isFirstSplit (h : s.IsComplete) (rest : List Char) :
    ∃ after, IsFirstSplit dashes (s.fromLabel ++ rest) s.label after := by
  have hopened := h.opened
  rw [openMarker, chars_eq, List.append_assoc, List.prefix_append_right_inj] at hopened
  obtain ⟨after, hafter⟩ := hopened
  refine ⟨after ++ rest, by rw [← hafter, List.append_assoc], fun z hz => ?_⟩
  refine Text.length_le_of_prefix (s := dashes ++ (after ++ rest)) h.label_plain ?_ ?_
  · intro c hc hmem
    have hdash : c = '-' := by simpa [dashes] using hmem
    exact h.label_last (hdash ▸ hc)
  · simpa only [← hafter, List.append_assoc] using hz

/-- A label that ends where dashes stand first is one that a complete section may have. -/
theorem label_of_isFirstSplit {label after : List Char}
    (h : IsFirstSplit dashes text label after) :
    ¬dashes <:+: label ∧ label.getLast? ≠ some '-' := by
  constructor
  · rintro ⟨u, v, rfl⟩
    have hlength := h.first u ⟨v ++ dashes ++ after, by simp [h.eq]⟩
    have hdashes : dashes.length = 5 := by decide
    simp only [List.length_append] at hlength
    omega
  · intro hlast
    obtain ⟨u, rfl⟩ := List.getLast?_eq_some_iff.1 hlast
    have hlength := h.first u ⟨'-' :: after, by simp [h.eq, dashes]⟩
    rw [List.length_append] at hlength
    exact Nat.not_succ_le_self _ hlength

/-- The last marker begins with dashes, so it cannot begin before the label has ended. -/
theorem label_prefix {label after labelAndInner : List Char}
    (hlabel : IsFirstSplit dashes text label after)
    (hclose : IsFirstSplit (closeMarker label) text labelAndInner rest) :
    label <+: labelAndInner := by
  have hdashes : labelAndInner ++ dashes <+: text := by
    rw [hclose.eq, closeMarker_eq, List.append_assoc, List.append_assoc]
    exact ⟨_, List.append_assoc _ _ _⟩
  exact List.prefix_of_prefix_length_le hlabel.before_prefix hclose.before_prefix
    (hlabel.first labelAndInner hdashes)

end Section

/-! ### One step -/

/-- The section whose label a text begins with, and what follows the section. -/
def close? (fromLabel : List Char) : Option (Section × List Char) :=
  match Text.splitAt? dashes fromLabel with
  | none => none
  | some (label, _) =>
    match Text.splitAt? (closeMarker label) fromLabel with
    | none => none
    | some (labelAndInner, rest) => some (⟨label, labelAndInner.drop label.length⟩, rest)

theorem next?_eq_bind (text : List Char) :
    next? text = (Text.splitAt? beginning text).bind fun r => close? r.2 := by
  rw [next?]
  cases Text.splitAt? beginning text <;> rfl

/-- A text begins with the label of a section if a complete section can be made of its front. -/
theorem close?_eq_some_iff :
    close? text = some (s, rest) ↔ s.IsComplete ∧ text = s.fromLabel ++ rest := by
  constructor
  · intro h
    simp only [close?] at h
    split at h
    · simp at h
    next label afterLabel hlabel =>
    split at h
    · simp at h
    next labelAndInner after hclose =>
    obtain ⟨rfl, rfl⟩ : _ = s ∧ after = rest := by simpa using h
    rw [Text.splitAt?_eq_some_iff] at hlabel hclose
    obtain ⟨inner, rfl⟩ := Section.label_prefix hlabel hclose
    have htext : text = label ++ inner ++ closeMarker label ++ after := hclose.eq
    obtain ⟨hplain, hlast⟩ := Section.label_of_isFirstSplit hlabel
    rw [List.drop_left]
    refine ⟨⟨hplain, hlast, ?_, ?_⟩, htext⟩
    · rw [openMarker, Section.chars_eq, List.append_assoc, List.prefix_append_right_inj]
      have hlabelled : label ++ dashes <+: text := ⟨afterLabel, hlabel.eq.symm⟩
      refine List.prefix_of_prefix_length_le hlabelled ⟨after, htext.symm⟩ ?_
      simp only [Section.fromLabel, closeMarker, List.length_append]
      omega
    · rw [htext] at hclose
      exact IsFirstSplit.of_append (t := after) hclose
  · rintro ⟨hcomplete, rfl⟩
    obtain ⟨afterLabel, hlabel⟩ := hcomplete.exists_isFirstSplit rest
    have hclose := hcomplete.closed.append rest
    rw [← Text.splitAt?_eq_some_iff] at hlabel hclose
    simp only [close?, hlabel, hclose, List.drop_left, List.nil_append]

/-- The two markers may share dashes. -/
example : close? "A-----END A-----\n".toList = some (⟨['A'], []⟩, ['\n']) := by decide

/-- A step finds the first section of a text if it is complete, and nothing otherwise. -/
theorem next?_eq_some_iff :
    next? text = some (s, rest) ↔
      s.IsComplete ∧ ∃ before, IsFirstSplit beginning text before (s.fromLabel ++ rest) := by
  rw [next?_eq_bind, Option.bind_eq_some_iff]
  constructor
  · rintro ⟨⟨before, fromLabel⟩, hbeginning, hclose⟩
    obtain ⟨hcomplete, rfl⟩ := close?_eq_some_iff.1 hclose
    exact ⟨hcomplete, before, Text.splitAt?_eq_some_iff.1 hbeginning⟩
  · rintro ⟨hcomplete, before, hbeginning⟩
    exact ⟨_, Text.splitAt?_eq_some_iff.2 hbeginning, close?_eq_some_iff.2 ⟨hcomplete, rfl⟩⟩

/-- What is appended to a text stands after the section that is found in it. -/
theorem next?_append (h : next? text = some (s, rest)) (suffix : List Char) :
    next? (text ++ suffix) = some (s, rest ++ suffix) := by
  obtain ⟨hcomplete, before, hbeginning⟩ := next?_eq_some_iff.1 h
  refine next?_eq_some_iff.2 ⟨hcomplete, before, ?_⟩
  simpa only [List.append_assoc] using hbeginning.append suffix

/-- A complete section is found at the front of a text. -/
theorem next?_chars_append (h : s.IsComplete) (text : List Char) :
    next? (s.chars ++ text) = some (s, text) := by
  refine next?_eq_some_iff.2 ⟨h, [], ?_⟩
  rw [Section.chars_eq, List.append_assoc]
  exact IsFirstSplit.of_front _ _

/-- No first marker begins in lines that do not hold one, so a step passes over them. -/
theorem next?_append_left {lines : List Char} (h : ¬beginning <:+: lines)
    (hlast : lines.getLast? = some '\n') (text : List Char) :
    next? (lines ++ text) = next? text := by
  have hskip : Text.splitAt? beginning (lines ++ text) =
      (Text.splitAt? beginning text).map fun r => (lines ++ r.1, r.2) := by
    refine Text.splitAt?_append_left fun z hz => Text.length_le_of_prefix h ?_ hz
    intro c hc
    obtain rfl : '\n' = c := by simpa [hlast] using hc
    decide
  rw [next?_eq_bind, next?_eq_bind, hskip, Option.bind_map]
  rfl

/-! ### The whole search -/

namespace KeyLabel

theorem ofChars?_chars (l : KeyLabel) : ofChars? l.chars = some l := by
  cases l <;> decide

theorem ofChars?_eq_some_iff {cs : List Char} : ofChars? cs = some l ↔ cs = l.chars := by
  refine ⟨fun h => ?_, fun h => h ▸ ofChars?_chars l⟩
  have := List.find?_some h
  exact (beq_iff_eq.1 this).symm

theorem ofChars?_eq_none_iff {cs : List Char} :
    ofChars? cs = none ↔ ∀ l : KeyLabel, cs ≠ l.chars := by
  rw [Option.eq_none_iff_forall_ne_some]
  exact forall_congr' fun l => not_congr ofChars?_eq_some_iff

end KeyLabel

theorem firstKey?_of_next?_eq_none (h : next? text = none) : firstKey? text = none := by
  rw [firstKey?]
  split
  · rfl
  · simp_all

theorem firstKey?_of_next? (h : next? text = some (s, rest)) :
    firstKey? text = (KeyLabel.ofChars? s.label).elim (firstKey? rest) fun l => some (l, s) := by
  rw [firstKey?]
  split
  · simp_all
  · next h' =>
    obtain ⟨rfl, rfl⟩ : _ = s ∧ _ = rest := by simpa [h'] using h
    split <;> simp_all

theorem firstKey?_congr {text' : List Char} (h : next? text = next? text') :
    firstKey? text = firstKey? text' := by
  cases hn : next? text' with
  | none => rw [firstKey?_of_next?_eq_none hn, firstKey?_of_next?_eq_none (h.trans hn)]
  | some r => rw [firstKey?_of_next? hn, firstKey?_of_next? (h.trans hn)]

/-- Induction along the steps of the search: over texts in which no section is found, those whose
first section is a key's, and those in which the search goes on after the first section. -/
theorem firstKey?_induction {motive : List Char → Prop}
    (done : ∀ text, next? text = none → motive text)
    (found : ∀ text s rest l, next? text = some (s, rest) → KeyLabel.ofChars? s.label = some l →
      motive text)
    (passed : ∀ text s rest, next? text = some (s, rest) → KeyLabel.ofChars? s.label = none →
      motive rest → motive text)
    (text : List Char) : motive text := by
  induction text using firstKey?.induct with
  | case1 text h => exact done text h
  | case2 text s rest h l hl => exact found text s rest l h hl
  | case3 text s rest h hl _ ih => exact passed text s rest h hl ih

/-- The section of a key is found by a step somewhere in the text. -/
theorem exists_of_firstKey? (h : firstKey? text = some (l, s)) :
    s.label = l.chars ∧
      ∃ skipped ahead rest, text = skipped ++ ahead ∧ next? ahead = some (s, rest) := by
  induction text using firstKey?_induction with
  | done text hnone => simp [firstKey?_of_next?_eq_none hnone] at h
  | found text s' rest l' hnext hl =>
    obtain ⟨rfl, rfl⟩ : l' = l ∧ s' = s := by simpa [firstKey?_of_next? hnext, hl] using h
    exact ⟨KeyLabel.ofChars?_eq_some_iff.1 hl, [], text, rest, rfl, hnext⟩
  | passed text s' rest hnext hl ih =>
    have hrest : firstKey? rest = some (l, s) := by simpa [firstKey?_of_next? hnext, hl] using h
    obtain ⟨hlabel, skipped, ahead, rest', rfl, hahead⟩ := ih hrest
    obtain ⟨-, before, hbeginning⟩ := next?_eq_some_iff.1 hnext
    exact ⟨hlabel, before ++ beginning ++ s'.fromLabel ++ skipped, ahead, rest',
      by simp [hbeginning.eq], hahead⟩

/-- A key that is found in a text is found whatever is appended to the text. -/
theorem firstKey?_append (h : firstKey? text = some (l, s)) (suffix : List Char) :
    firstKey? (text ++ suffix) = some (l, s) := by
  induction text using firstKey?_induction with
  | done text hnone => simp [firstKey?_of_next?_eq_none hnone] at h
  | found text s' rest l' hnext hl =>
    rw [firstKey?_of_next? (next?_append hnext suffix), ← h, firstKey?_of_next? hnext, hl]
    rfl
  | passed text s' rest hnext hl ih =>
    have hrest : firstKey? rest = some (l, s) := by simpa [firstKey?_of_next? hnext, hl] using h
    rw [firstKey?_of_next? (next?_append hnext suffix), hl]
    exact ih hrest

theorem firstKey?_append_left {lines : List Char} (h : ¬beginning <:+: lines)
    (hlast : lines.getLast? = some '\n') (text : List Char) :
    firstKey? (lines ++ text) = firstKey? text :=
  firstKey?_congr (next?_append_left h hlast text)

/-- The search passes over a complete section with another label, whatever its body holds. -/
theorem firstKey?_chars_append (h : s.IsComplete) (hlabel : ∀ l : KeyLabel, s.label ≠ l.chars)
    (text : List Char) : firstKey? (s.chars ++ text) = firstKey? text := by
  rw [firstKey?_of_next? (next?_chars_append h text), KeyLabel.ofChars?_eq_none_iff.2 hlabel]
  rfl

end LedgerKit.Pem
