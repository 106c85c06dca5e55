import LedgerKit.Proofs.Phrases

/-!
# Two ways to enter a phrase

A phrase is entered as a text or as a list of words.  The list is put into lower case before it is
read and the text is not.  So what is accepted as a text is accepted as a list and gives the same
mnemonic, and the converse holds if and only if the words are in lower case already.

* `Mnemonic.parseWords_of_lowersTo` : it does not matter what lower case makes of characters that
  occur in no word.
* `Mnemonic.listed_and_typed` : what the two ways say of the same words.
* `Mnemonic.capitals_refused` : words that are a phrase when they are listed and none when they are
  typed.
-/

namespace LedgerKit.Mnemonic

open List (Forall₂)

variable {m : Mnemonic} {ws vs : List String}

/-- Each of these is one word: it is not empty and holds no white space. -/
def AreWords (ws : List String) : Prop := ∀ w ∈ ws, Text.IsWord w.toList

/-- The words in lower case. -/
def inLowerCase (ws : List String) : List String := ws.map fun w => w.map lowerCase

/-! ### Lower case -/

/-- The lower case of a character is white space only if the character is. -/
theorem isBlank_lowerCase (c : Char) : Text.isBlank (lowerCase c) = Text.isBlank c := by
  have htable : ∀ k < 0x80,
      Text.isBlank (lowerCase (Char.ofNat k)) = Text.isBlank (Char.ofNat k) := by
    decide
  by_cases hkelvin : c = '\u212a'
  · rw [hkelvin]
    rfl
  rcases Nat.lt_or_ge c.toNat 0x80 with hc | hc
  · have hrow := htable c.toNat hc
    rwa [Char.ofNat_toNat] at hrow
  · rw [lowerCase_eq_self hkelvin (by omega)]

theorem isWord_lowerCase {w : String} (h : Text.IsWord w.toList) :
    Text.IsWord (w.map lowerCase).toList := by
  rw [String.toList_map]
  refine ⟨by simpa using h.1, fun c hc => ?_⟩
  obtain ⟨d, hd, rfl⟩ := List.mem_map.1 hc
  rw [isBlank_lowerCase, h.2 d hd]

theorem areWords_inLowerCase (h : AreWords ws) : AreWords (inLowerCase ws) := by
  intro v hv
  obtain ⟨w, hw, rfl⟩ := List.mem_map.1 hv
  exact isWord_lowerCase (h w hw)

/-! ### Words with spaces between them -/

/-- Words that are joined by spaces are read one by one. -/
theorem parse_intercalate (h : AreWords ws) :
    parse (" ".intercalate ws) = (ofWords ws).mapError .invalidMnemonic := by
  have hwords : Text.words (" ".intercalate ws).toList = ws.map String.toList := by
    rw [String.toList_intercalate]
    apply Text.words_intercalate
    simpa [AreWords] using h
  rw [parse, hwords, map_ofList_eq_iff.2 rfl]
  cases ofWords ws <;> rfl

theorem parse_intercalate_eq_ok_iff (h : AreWords ws) :
    parse (" ".intercalate ws) = .ok m ↔ m.words = ws := by
  rw [parse_intercalate h, ← ofWords_eq_ok_iff]
  cases ofWords ws <;> simp [Except.mapError]

theorem parseWords_eq_ok_iff (h : AreWords ws) :
    parseWords ws = .ok m ↔ m.words = inLowerCase ws :=
  parse_intercalate_eq_ok_iff (areWords_inLowerCase h)

/-! ### Characters that occur in no word -/

/-- What lower case may make of a word. -/
inductive LowersTo (w : String) : String → Prop where
  /-- What `lowerCase` makes of each character. -/
  | each : LowersTo w (w.map lowerCase)
  /-- If not all of that is ASCII, any other word that is not all of ASCII. -/
  | other {v : String} {c d : Char} (hc : c ∈ w.toList) (hc' : 0x80 ≤ (lowerCase c).toNat)
      (hv : Text.IsWord v.toList) (hd : d ∈ v.toList) (hd' : 0x80 ≤ d.toNat) : LowersTo w v

/-- A word with anything but lower-case letters has no place. -/
theorem placeOf?_eq_none {w : String} {c : Char} (hc : c ∈ w.toList) (h : c.isLower = false) :
    placeOf? w = none := by
  cases hp : placeOf? w with
  | none => rfl
  | some p =>
    have hlower := (isPlain_of_placeOf? hp).2 c hc
    rw [h] at hlower
    cases hlower

theorem isLower_of_le {c : Char} (h : 0x80 ≤ c.toNat) : c.isLower = false := by
  cases hlower : c.isLower with
  | false => rfl
  | true =>
    have hrange := isLower_iff.1 hlower
    omega

theorem LowersTo.isWord {w v : String} (h : LowersTo w v) (hw : Text.IsWord w.toList) :
    Text.IsWord v.toList := by
  cases h with
  | each => exact isWord_lowerCase hw
  | other _ _ hv _ _ => exact hv

/-- A word that is not all of ASCII has no place, and neither has the one that `lowerCase` makes. -/
theorem LowersTo.placeOf?_eq {w v : String} (h : LowersTo w v) :
    placeOf? v = placeOf? (w.map lowerCase) := by
  cases h with
  | each => rfl
  | other hc hc' _ hd hd' =>
    have hlowered := List.mem_map_of_mem (f := lowerCase) hc
    rw [← String.toList_map] at hlowered
    rw [placeOf?_eq_none hd (isLower_of_le hd'), placeOf?_eq_none hlowered (isLower_of_le hc')]

theorem areWords_of_lowersTo (h : AreWords ws) (hlower : Forall₂ LowersTo ws vs) : AreWords vs := by
  intro v hv
  induction hlower with
  | nil => cases hv
  | cons hw _ ih =>
    obtain ⟨hword, hwords⟩ := List.forall_mem_cons.1 h
    rcases List.mem_cons.1 hv with rfl | hv
    · exact hw.isWord hword
    · exact ih hwords hv

theorem placesOf_congr (h : Forall₂ (fun v w => placeOf? v = placeOf? w) vs ws) (index : ℕ) :
    placesOf index vs = placesOf index ws := by
  induction h generalizing index with
  | nil => rfl
  | cons hw _ ih => rw [placesOf, placesOf, hw, ih]

theorem ofWords_congr (h : Forall₂ (fun v w => placeOf? v = placeOf? w) vs ws) :
    ofWords vs = ofWords ws := by
  have hplaces := placesOf_congr h 0
  have hlength := h.length_eq
  cases h with
  | nil => rfl
  | cons hw _ => rw [ofWords, ofWords, hw, hlength, hplaces]

/-- **Nothing depends on the lower case of other characters** than the letters of the words. -/
theorem parseWords_of_lowersTo (h : AreWords ws) (hlower : Forall₂ LowersTo ws vs) :
    parseWords ws = parse (" ".intercalate vs) := by
  have hvs := areWords_of_lowersTo h hlower
  have hsame : ofWords (inLowerCase ws) = ofWords vs := by
    apply ofWords_congr
    rw [inLowerCase, List.forall₂_map_left_iff]
    exact hlower.imp fun w v hv => hv.placeOf?_eq.symm
  have hlisted : parseWords ws = parse (" ".intercalate (inLowerCase ws)) := rfl
  rw [hlisted, parse_intercalate (areWords_inLowerCase h), parse_intercalate hvs, hsame]

/-! ### The two ways -/

/-- What the two ways to enter the same words have to do with each other. -/
structure Entered (ws : List String) : Prop where
  /-- The list is read as the text of its words in lower case, whatever lower case makes of
  characters that occur in no word. -/
  lowered : ∀ vs, Forall₂ LowersTo ws vs → parseWords ws = parse (" ".intercalate vs)
  /-- The text is accepted if and only if the list is and was in lower case already, and then the
  two are the same mnemonic. -/
  accepted : ∀ m, parse (" ".intercalate ws) = .ok m ↔ parseWords ws = .ok m ∧ inLowerCase ws = ws
  /-- In lower case the two are the same also in why they are refused. -/
  agree : inLowerCase ws = ws → parseWords ws = parse (" ".intercalate ws)

/-- **A list of words is accepted in any case, a text in lower case only.** -/
theorem listed_and_typed (h : AreWords ws) : Entered ws where
  lowered _ hlower := parseWords_of_lowersTo h hlower
  accepted m := by
    rw [parse_intercalate_eq_ok_iff h, parseWords_eq_ok_iff h]
    constructor
    · rintro rfl
      have hlower : inLowerCase m.words = m.words := m.map_lowerCase_words
      exact ⟨hlower.symm, hlower⟩
    · rintro ⟨hwords, hlower⟩
      exact hwords.trans hlower
  agree hlower := by
    rw [parseWords]
    exact congrArg (fun vs => parse (" ".intercalate vs)) hlower

/-- A phrase of twelve words in capitals. -/
def capitals : List String := List.replicate 11 "ABANDON" ++ ["ABOUT"]

theorem areWords_capitals : AreWords capitals := by
  intro w hw
  have htwo : w = "ABANDON" ∨ w = "ABOUT" := by
    simpa [capitals] using hw
  rcases htwo with rfl | rfl
  · simp [Text.IsWord, Text.isBlank]
  · simp [Text.IsWord, Text.isBlank]

theorem listed_and_typed_capitals : AreWords capitals ∧ Entered capitals :=
  ⟨areWords_capitals, listed_and_typed areWords_capitals⟩

/-- Listed, the words are the phrase of sixteen zero bytes; typed, they are no phrase. -/
theorem capitals_refused : AreWords capitals ∧
    parseWords capitals = .ok ⟨List.replicate 16 0, rfl⟩ ∧
    parse "ABANDON ABANDON ABANDON ABANDON ABANDON ABANDON ABANDON ABANDON ABANDON ABANDON ABANDON ABOUT"
      = .error (.invalidMnemonic (.unknownWord 0)) := by
  have hlisted : words ⟨List.replicate 16 0, rfl⟩ = inLowerCase capitals := by decide +kernel
  have hplace : placeOf? "ABANDON" = none :=
    placeOf?_eq_none (c := 'A') (by decide) (by decide)
  have htyped : ofWords capitals = .error (.unknownWord 0) := by
    simp [capitals, List.replicate_succ, ofWords, hplace]
  refine ⟨areWords_capitals, (parseWords_eq_ok_iff areWords_capitals).2 hlisted, ?_⟩
  have hparse := parse_intercalate areWords_capitals
  rw [htyped] at hparse
  exact hparse

end LedgerKit.Mnemonic
