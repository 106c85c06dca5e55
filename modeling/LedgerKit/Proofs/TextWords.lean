import LedgerKit.Text.Search
import Mathlib.Data.List.Basic

/-!
# The words of a text

A text has some words if and only if it consists of them in their order, with white space between
them and perhaps around them (`Text.words_eq_iff`).  That is said without splitting: `IsSpaced`
builds the text up from its end, by a blank or by a word in front of a blank.
-/

namespace LedgerKit.Text

/-- A word has characters, and none of them is white space. -/
def IsWord (w : List Char) : Prop := w ≠ [] ∧ ∀ c ∈ w, isBlank c = false

/-- The text consists of these words with white space between them, and perhaps around them. -/
inductive IsSpaced : List (List Char) → List Char → Prop where
  /-- An empty text has no words. -/
  | nil : IsSpaced [] []
  /-- White space may stand anywhere in front of a word or at the end. -/
  | blank {c : Char} {ws : List (List Char)} {cs : List Char} (hc : isBlank c = true)
      (hcs : IsSpaced ws cs) : IsSpaced ws (c :: cs)
  /-- A word reaches up to the next white space or to the end. -/
  | word {w : List Char} {ws : List (List Char)} {cs : List Char} (hw : IsWord w)
      (hend : ∀ c ∈ cs.head?, isBlank c = true) (hcs : IsSpaced ws cs) :
      IsSpaced (w :: ws) (w ++ cs)

/-- Two texts consist of the same words: they differ in nothing but white space. -/
def SameWords (a b : List Char) : Prop := ∃ ws, IsSpaced ws a ∧ IsSpaced ws b

variable {ws : List (List Char)} {cs : List Char}

/-! ### Splitting at white space -/

/-- White space belongs to no word. -/
theorem words_append_blank {c : Char} (hc : isBlank c = true) (a b : List Char) :
    words (a ++ c :: b) = words a ++ words b := by
  rw [words, List.splitOnP_append_cons a b hc, List.filter_append]
  rfl

theorem words_blank {c : Char} (hc : isBlank c = true) (cs : List Char) :
    words (c :: cs) = words cs :=
  words_append_blank hc [] cs

theorem words_of_isWord {w : List Char} (hw : IsWord w) : words w = [w] := by
  rw [words, List.splitOnP_eq_singleton hw.2]
  simp [hw.1]

theorem IsSpaced.words_eq (h : IsSpaced ws cs) : words cs = ws := by
  induction h with
  | nil => rfl
  | blank hc _ ih => rw [words_blank hc, ih]
  | @word w ws cs hw hend _ ih =>
    cases cs with
    | nil =>
      have hws : ws = [] := ih.symm
      rw [List.append_nil, words_of_isWord hw, hws]
    | cons c cs =>
      have hc : isBlank c = true := hend c rfl
      rw [words_append_blank hc, words_of_isWord hw, ← words_blank hc, ih]
      rfl

/-- A character that is no white space begins a word, or goes in front of the one that the text
begins with. -/
theorem IsSpaced.cons {c : Char} (hc : isBlank c = false) (h : IsSpaced ws cs) :
    ∃ vs, IsSpaced vs (c :: cs) := by
  have hone : IsWord [c] := ⟨List.cons_ne_nil c [], by simpa using hc⟩
  cases h with
  | nil => exact ⟨_, .word hone (by simp) .nil⟩
  | blank hd hcs => exact ⟨_, .word hone (by simpa using hd) (.blank hd hcs)⟩
  | @word w ws cs hw hend hcs =>
    have hlonger : IsWord (c :: w) := ⟨List.cons_ne_nil c w, List.forall_mem_cons.2 ⟨hc, hw.2⟩⟩
    exact ⟨_, .word hlonger hend hcs⟩

/-- Every text consists of some words. -/
theorem exists_isSpaced (cs : List Char) : ∃ ws, IsSpaced ws cs := by
  induction cs with
  | nil => exact ⟨[], .nil⟩
  | cons c cs ih =>
    obtain ⟨ws, hws⟩ := ih
    cases hc : isBlank c with
    | true => exact ⟨ws, .blank hc hws⟩
    | false => exact hws.cons hc

/-- **Splitting a text finds the words that it consists of.** -/
theorem words_eq_iff : words cs = ws ↔ IsSpaced ws cs := by
  constructor
  · rintro rfl
    obtain ⟨ws, hws⟩ := exists_isSpaced cs
    exact hws.words_eq ▸ hws
  · exact IsSpaced.words_eq

theorem isSpaced_words (cs : List Char) : IsSpaced (words cs) cs := words_eq_iff.1 rfl

theorem sameWords_iff {a b : List Char} : SameWords a b ↔ words a = words b := by
  constructor
  · rintro ⟨ws, ha, hb⟩
    rw [ha.words_eq, hb.words_eq]
  · intro h
    exact ⟨words b, h ▸ isSpaced_words a, isSpaced_words b⟩

/-! ### Words joined by single spaces -/

theorem isSpaced_intercalate (h : ∀ w ∈ ws, IsWord w) : IsSpaced ws ([' '].intercalate ws) := by
  induction ws with
  | nil => exact .nil
  | cons w ws ih =>
    obtain ⟨hw, hws⟩ := List.forall_mem_cons.1 h
    cases ws with
    | nil =>
      have hlast : IsSpaced [w] (w ++ []) := .word hw (by simp) .nil
      rw [List.append_nil] at hlast
      rwa [List.intercalate_singleton]
    | cons v ws =>
      rw [List.intercalate_cons_cons, List.append_assoc]
      exact .word hw (by simp [isBlank]) (.blank rfl (ih hws))

theorem words_intercalate (h : ∀ w ∈ ws, IsWord w) : words ([' '].intercalate ws) = ws :=
  (isSpaced_intercalate h).words_eq

end LedgerKit.Text
