import LedgerKit.Proofs.Lists
import LedgerKit.Proofs.PhraseNumber
import LedgerKit.Proofs.TextWords
import LedgerKit.Proofs.WordTable

/-!
# Phrases and entropy

A phrase is read as a mnemonic if and only if its words are those of the mnemonic
(`Mnemonic.ofWords_eq_ok_iff`), so a text is one if it differs from the written phrase in white
space only (`Mnemonic.parse_eq_ok_iff`).  Every mnemonic is that of its entropy, and its phrase
gives the entropy back.

* `Mnemonic.entropy_and_phrases` : entropy, words and texts, in both directions, and phrases that
  are drawn.
-/

namespace LedgerKit

/-! ### Words of lower-case letters -/

theorem isBlank_of_isLower {c : Char} (h : c.isLower = true) : Text.isBlank c = false := by
  obtain ⟨hmin, hmax⟩ := isLower_iff.1 h
  simp only [Text.isBlank, Bool.or_eq_false_iff, Bool.and_eq_false_iff, decide_eq_false_iff_not,
    beq_eq_false_iff_ne, ne_eq]
  omega

theorem IsPlain.isWord {w : String} (h : IsPlain w) : Text.IsWord w.toList :=
  ⟨fun hnil => h.1 (String.toList_eq_nil_iff.1 hnil), fun c hc => isBlank_of_isLower (h.2 c hc)⟩

namespace Mnemonic

variable {m : Mnemonic} {ws : List String} {ps : List ℕ}

/-- Nothing but the capitals of ASCII and the sign for kelvin is changed. -/
theorem lowerCase_eq_self {c : Char} (hkelvin : c ≠ '\u212a') (h : c.toNat < 65 ∨ 90 < c.toNat) :
    lowerCase c = c := by
  have hupper : ¬ (c.val ≥ 'A'.val ∧ c.val ≤ 'Z'.val) := by
    rintro ⟨ha, hz⟩
    have ha : 65 ≤ c.toNat := ha
    have hz : c.toNat ≤ 90 := hz
    omega
  rw [lowerCase, if_neg hkelvin]
  exact dif_neg hupper

theorem lowerCase_of_isLower {c : Char} (h : c.isLower = true) : lowerCase c = c := by
  obtain ⟨hmin, hmax⟩ := isLower_iff.1 h
  apply lowerCase_eq_self
  · rintro rfl
    exact absurd hmax (by decide)
  · omega

theorem map_lowerCase_of_isPlain {w : String} (h : IsPlain w) : w.map lowerCase = w := by
  rw [← String.toList_inj, String.toList_map]
  exact (List.map_congr_left fun c hc => lowerCase_of_isLower (h.2 c hc)).trans (List.map_id' _)

/-! ### The words of a mnemonic -/

theorem words_eq (m : Mnemonic) : m.words = m.wordPlaces.map wordAt := rfl

theorem lt_of_mem_wordPlaces {p : ℕ} (h : p ∈ m.wordPlaces) : p < wordCount := lt_of_mem_places h

@[simp] theorem length_wordPlaces (m : Mnemonic) : m.wordPlaces.length = m.size :=
  length_places _ _

@[simp] theorem length_words (m : Mnemonic) : m.words.length = m.size := by simp [words_eq]

theorem isPlain_of_mem_words {w : String} (h : w ∈ m.words) : IsPlain w := by
  obtain ⟨p, hp, rfl⟩ := List.mem_map.1 h
  exact IsPlain.wordAt (lt_of_mem_wordPlaces hp)

theorem placesOf_eq_ok_iff {index : ℕ} :
    placesOf index ws = .ok ps ↔ (∀ p ∈ ps, p < wordCount) ∧ ps.map wordAt = ws := by
  induction ws generalizing index ps with
  | nil => cases ps <;> simp [placesOf]
  | cons w ws ih =>
    rw [placesOf]
    cases hw : placeOf? w with
    | none =>
      simp only [reduceCtorEq, false_iff, not_and]
      intro hps hmap
      cases ps with
      | nil => cases hmap
      | cons p ps =>
        obtain ⟨rfl, -⟩ := List.cons.inj hmap
        rw [placeOf?_wordAt (hps p List.mem_cons_self)] at hw
        cases hw
    | some q =>
      obtain ⟨hq, rfl⟩ := placeOf?_eq_some_iff.1 hw
      simp only [map_cons_eq_ok_iff, ih]
      constructor
      · rintro ⟨qs, ⟨hqs, rfl⟩, rfl⟩
        exact ⟨List.forall_mem_cons.2 ⟨hq, hqs⟩, rfl⟩
      · rintro ⟨hps, hmap⟩
        cases ps with
        | nil => cases hmap
        | cons p ps =>
          obtain ⟨hp, hps⟩ := List.forall_mem_cons.1 hps
          obtain ⟨hword, hmap⟩ := List.cons.inj hmap
          have hplace := placeOf?_wordAt hp
          rw [hword, hw] at hplace
          exact ⟨ps, ⟨hps, hmap⟩, congrArg (· :: ps) (Option.some.inj hplace)⟩

/-- The first word is looked up twice, which makes no difference to what is accepted. -/
theorem ofWords_eq_ok_iff_places : ofWords ws = .ok m ↔
    isWordCount ws.length = true ∧ ∃ ps, placesOf 0 ws = .ok ps ∧ ofPlaces? ps = some m := by
  cases ws with
  | nil => simp [ofWords, isWordCount]
  | cons first rest =>
    rw [ofWords]
    cases hfirst : placeOf? first with
    | none => simp [placesOf, hfirst]
    | some p =>
      cases hcount : isWordCount (first :: rest).length with
      | false => simp
      | true =>
        cases hplaces : placesOf 0 (first :: rest) with
        | error e => simp
        | ok ps => cases hspelt : ofPlaces? ps <;> simp [hspelt]

/-- **Words are read as a mnemonic if and only if they are its words.** -/
theorem ofWords_eq_ok_iff : ofWords ws = .ok m ↔ m.words = ws := by
  rw [ofWords_eq_ok_iff_places]
  constructor
  · rintro ⟨hcount, ps, hps, hspelt⟩
    obtain ⟨hlt, rfl⟩ := placesOf_eq_ok_iff.1 hps
    rw [List.length_map] at hcount
    rw [words_eq, (ofPlaces?_eq_some_iff hcount hlt).1 hspelt]
  · rintro rfl
    refine ⟨m.length_words ▸ m.isWordCount_size, m.wordPlaces, ?_, m.ofPlaces?_wordPlaces⟩
    exact placesOf_eq_ok_iff.2 ⟨fun _ => lt_of_mem_wordPlaces, rfl⟩

/-! ### Texts -/

theorem parse_eq_ok_iff_ofWords {text : String} : parse text = .ok m ↔
    ofWords ((Text.words text.toList).map String.ofList) = .ok m := by
  unfold parse
  cases ofWords ((Text.words text.toList).map String.ofList) <;> simp

/-- The words of a phrase as texts of their own. -/
theorem map_ofList_eq_iff {vs : List (List Char)} :
    vs.map String.ofList = ws ↔ vs = ws.map String.toList := by
  constructor
  · rintro rfl
    simp
  · rintro rfl
    simp

theorem isSpaced_toString (m : Mnemonic) :
    Text.IsSpaced (m.words.map String.toList) m.toString.toList := by
  rw [toString, String.toList_intercalate]
  apply Text.isSpaced_intercalate
  intro w hw
  obtain ⟨v, hv, rfl⟩ := List.mem_map.1 hw
  exact (isPlain_of_mem_words hv).isWord

/-- **A text is read as a mnemonic if and only if it is the phrase up to white space.** -/
theorem parse_eq_ok_iff {text : String} :
    parse text = .ok m ↔ Text.SameWords text.toList m.toString.toList := by
  rw [parse_eq_ok_iff_ofWords, ofWords_eq_ok_iff, eq_comm, map_ofList_eq_iff, Text.sameWords_iff,
    m.isSpaced_toString.words_eq]

theorem parse_toString (m : Mnemonic) : parse m.toString = .ok m :=
  parse_eq_ok_iff.2 ⟨_, m.isSpaced_toString, m.isSpaced_toString⟩

theorem map_lowerCase_words (m : Mnemonic) : m.words.map (fun w => w.map lowerCase) = m.words :=
  (List.map_congr_left fun _ hw => map_lowerCase_of_isPlain (isPlain_of_mem_words hw)).trans
    (List.map_id' _)

theorem parseWords_words (m : Mnemonic) : parseWords m.words = .ok m := by
  rw [parseWords, map_lowerCase_words]
  exact m.parse_toString

/-! ### Entropy -/

theorem ofEntropy_eq_ok_iff {e : Bytes} : ofEntropy e = .ok m ↔ m.entropy = e := by
  unfold ofEntropy
  split
  · obtain ⟨entropy, hsize⟩ := m
    simp [eq_comm]
  · next h =>
    simp only [reduceCtorEq, false_iff]
    rintro rfl
    exact h m.size_ok

theorem exists_ofEntropy_iff {e : Bytes} :
    (∃ m, ofEntropy e = .ok m) ↔ e.length ∈ [16, 20, 24, 28, 32] := by
  simp only [ofEntropy_eq_ok_iff]
  constructor
  · rintro ⟨m, rfl⟩
    exact m.size_mem
  · intro h
    exact ⟨⟨e, isEntropySize_iff.2 h⟩, rfl⟩

theorem toString_inj {m' : Mnemonic} (h : m'.toString = m.toString) : m' = m := by
  have hread := m'.parse_toString
  rw [h, m.parse_toString] at hread
  exact (Except.ok.inj hread).symm

/-- The mnemonic has `count` words and is read back from its phrase and from its words. -/
structure ReadBack (m : Mnemonic) (count : ℕ) : Prop where
  size : m.size = count
  words : m.words.length = count
  phrase : parse m.toString = .ok m
  listed : parseWords m.words = .ok m

theorem readBack (m : Mnemonic) : m.ReadBack (m.entropy.length / 4 * 3) :=
  ⟨rfl, m.length_words, m.parse_toString, m.parseWords_words⟩

/-- What is drawn is the mnemonic of `n` bytes. -/
theorem generate_readBack {σ : Type} [RandomSource σ] {n : ℕ} (h : n ∈ [16, 20, 24, 28, 32])
    (s : σ) : ∃ m, (generate n s).1 = .ok m ∧ m.ReadBack (n / 4 * 3) := by
  have hlength := (RandomSource.draw n s).1.length_toBytes
  obtain ⟨m, hm⟩ := exists_ofEntropy_iff.2 (hlength.symm ▸ h)
  refine ⟨m, hm, ?_⟩
  have hback := m.readBack
  rwa [ofEntropy_eq_ok_iff.1 hm, hlength] at hback

/-- **Mnemonics and entropy correspond one to one.**  Entropy has a mnemonic if and only if it has
16, 20, 24, 28 or 32 bytes; the mnemonic has three words for every four bytes and is read back from
its phrase and from its words, and no other entropy has the same phrase.  Conversely a text is read
as a mnemonic if and only if it is the phrase of that mnemonic up to white space, and the mnemonic
is that of some entropy.  So the phrases that are drawn, from any source, exist and are read
back. -/
theorem entropy_and_phrases :
    (∀ e : Bytes, ((∃ m, ofEntropy e = .ok m) ↔ e.length ∈ [16, 20, 24, 28, 32]) ∧
      ∀ m, ofEntropy e = .ok m → m.ReadBack (e.length / 4 * 3) ∧
        ∀ e' m', ofEntropy e' = .ok m' → m'.toString = m.toString → e' = e) ∧
    (∀ (text : String) (m : Mnemonic),
      (parse text = .ok m ↔ Text.SameWords text.toList m.toString.toList) ∧
      ∃ e, ofEntropy e = .ok m) ∧
    ∀ (σ : Type) [RandomSource σ] (s : σ),
      (∃ m, (generate12 s).1 = .ok m ∧ m.ReadBack 12) ∧
      ∃ m, (generate24 s).1 = .ok m ∧ m.ReadBack 24 := by
  refine ⟨fun e => ⟨exists_ofEntropy_iff, fun m hm => ?_⟩, fun text m => ⟨parse_eq_ok_iff, ?_⟩,
    fun σ _ s => ⟨generate_readBack (by decide) s, generate_readBack (by decide) s⟩⟩
  · obtain rfl := ofEntropy_eq_ok_iff.1 hm
    refine ⟨m.readBack, fun e' m' hm' hsame => ?_⟩
    obtain rfl := ofEntropy_eq_ok_iff.1 hm'
    rw [toString_inj hsame]
  · exact ⟨m.entropy, ofEntropy_eq_ok_iff.2 rfl⟩

end Mnemonic

end LedgerKit
