import LedgerKit.Text.Offset

/-!
# Sections of a text file

A section is what stands from `-----BEGIN label-----` to the next `-----END label-----`.
`firstKey?` finds the first one that is labelled as a private key, passing over complete sections
with other labels.  A section that is never closed ends the search.

`search?` is the same search over the whole text and an offset into it, in bytes, that cuts the text
where markers were found.  `round?` and `search?` answer nothing if they would cut the text where it
may not be cut.  Each round ends further on in the text (`lt_of_round?`), so the search ends.
-/

namespace LedgerKit.Pem

open Text (byteLength sliceFrom? slice? find?)

/-! ### Sections -/

/-- What every marker ends with. -/
def dashes : List Char := "-----".toList

/-- What the first marker of a section starts with. -/
def beginning : List Char := "-----BEGIN ".toList

/-- What the last marker of a section starts with. -/
def ending : List Char := "-----END ".toList

/-- The labels of private keys. -/
inductive KeyLabel where
  /-- A key in the clear. -/
  | plain
  /-- A key under a password. -/
  | encrypted
deriving DecidableEq, Repr

namespace KeyLabel

/-- The label as it is written. -/
def chars : KeyLabel → List Char
  | plain => "PRIVATE KEY".toList
  | encrypted => "ENCRYPTED PRIVATE KEY".toList

/-- The key label of this spelling. -/
def ofChars? (cs : List Char) : Option KeyLabel := [plain, encrypted].find? fun l => l.chars == cs

end KeyLabel

/-- The marker that opens a section. -/
def openMarker (label : List Char) : List Char := beginning ++ label ++ dashes

/-- The marker that closes a section. -/
def closeMarker (label : List Char) : List Char := ending ++ label ++ dashes

/-- A section of a text. -/
structure Section where
  /-- The label, which is in both markers. -/
  label : List Char
  /-- What stands between the label and the closing marker, the dashes after the label included. -/
  inner : List Char
deriving DecidableEq, Repr

/-- The whole text of a section, with both markers. -/
def Section.chars (s : Section) : List Char :=
  beginning ++ s.label ++ s.inner ++ closeMarker s.label

/-! ### The search from section to section -/

/-- The first section of a text and what follows it. -/
def next? (text : List Char) : Option (Section × List Char) :=
  match Text.splitAt? beginning text with
  | none => none
  | some (_, fromLabel) =>
    match Text.splitAt? dashes fromLabel with
    | none => none
    | some (label, _) =>
      match Text.splitAt? (closeMarker label) fromLabel with
      | none => none
      | some (labelAndInner, rest) => some (⟨label, labelAndInner.drop label.length⟩, rest)

theorem length_lt_of_next? {text rest : List Char} {s : Section} (h : next? text = some (s, rest)) :
    rest.length < text.length := by
  simp only [next?] at h
  split at h
  · simp at h
  · next fromLabel h₁ =>
    split at h
    · simp at h
    · split at h
      · simp at h
      · next h₃ =>
        have e₁ := congrArg List.length (Text.eq_append_of_splitAt? h₁)
        have e₃ := congrArg List.length (Text.eq_append_of_splitAt? h₃)
        have hb : beginning.length = 11 := by decide
        simp only [Option.some.injEq, Prod.mk.injEq] at h
        obtain ⟨-, rfl⟩ := h
        simp only [List.length_append] at e₁ e₃
        omega

/-- The first section with a private key's label. -/
def firstKey? (text : List Char) : Option (KeyLabel × Section) :=
  match h : next? text with
  | none => none
  | some (s, rest) =>
    match KeyLabel.ofChars? s.label with
    | some l => some (l, s)
    | none =>
      have := length_lt_of_next? h
      firstKey? rest
termination_by text.length

/-! ### The search by offsets -/

/-- How a round of the search ends. -/
inductive Round where
  /-- With an answer: the label and the whole text of a key's section, if there is any. -/
  | done (found? : Option (KeyLabel × List Char))
  /-- At the offset where the next round begins. -/
  | passed (offset : Nat)

/-- The label that begins at an offset, and the offset of the end of its section, if it has one. -/
def closeAt? (text : List Char) (labelStart : Nat) : Option (Option (List Char × Nat)) := do
  match find? dashes (← sliceFrom? text labelStart) with
  | none => some none
  | some labelLength =>
    let label ← slice? text labelStart (labelStart + labelLength)
    match find? (closeMarker label) (← sliceFrom? text labelStart) with
    | none => some none
    | some distance =>
      some (some (label, labelStart + distance + byteLength (closeMarker label)))

/-- The search for the first section of a text from an offset on. -/
def round? (text : List Char) (offset : Nat) : Option Round := do
  match find? beginning (← sliceFrom? text offset) with
  | none => some (.done none)
  | some found =>
    let start := offset + found
    match ← closeAt? text (start + byteLength beginning) with
    | none => some (.done none)
    | some (label, stop) =>
      match KeyLabel.ofChars? label with
      | some l => some (.done (some (l, ← slice? text start stop)))
      | none => some (.passed stop)

/-- A section is closed behind the beginning of its label, and not after the end of the text. -/
theorem le_of_closeAt? {text label : List Char} {labelStart stop : Nat}
    (h : closeAt? text labelStart = some (some (label, stop))) :
    labelStart ≤ stop ∧ stop ≤ byteLength text := by
  simp only [closeAt?, Option.bind_eq_bind, Option.bind_eq_some_iff] at h
  obtain ⟨fromLabel, hfromLabel, h⟩ := h
  split at h
  · simp at h
  · simp only [Option.bind_eq_some_iff] at h
    obtain ⟨_, -, _, hagain, h⟩ := h
    obtain rfl := Option.some_inj.1 (hfromLabel.symm.trans hagain)
    split at h
    · simp at h
    · next distance hdistance =>
      obtain ⟨rfl, rfl⟩ : _ = label ∧ _ = stop := by simpa using h
      have hlength := Text.byteLength_of_sliceFrom? hfromLabel
      have hle := Text.le_byteLength_of_find? hdistance
      omega

/-- A round that does not end the search ends further on, and not after the end of the text. -/
theorem lt_of_round? {text : List Char} {offset next : Nat}
    (h : round? text offset = some (.passed next)) :
    offset < next ∧ next ≤ byteLength text := by
  have hbeginning : byteLength beginning = 11 := by decide
  simp only [round?, Option.bind_eq_bind, Option.bind_eq_some_iff] at h
  obtain ⟨ahead, -, h⟩ := h
  split at h
  · simp at h
  · obtain ⟨closed?, hclosed, h⟩ := Option.bind_eq_some_iff.1 h
    split at h
    · simp at h
    · split at h
      · obtain ⟨_, -, h⟩ := Option.bind_eq_some_iff.1 h
        simp at h
      · obtain rfl : _ = next := by simpa using h
        have hle := le_of_closeAt? hclosed
        omega

/-- The search for a key from an offset on, round after round. -/
def search? (text : List Char) (offset : Nat) : Option (Option (KeyLabel × List Char)) :=
  match h : round? text offset with
  | none => none
  | some (.done found?) => some found?
  | some (.passed next) =>
    have := lt_of_round? h
    search? text next
termination_by byteLength text - offset

end LedgerKit.Pem
