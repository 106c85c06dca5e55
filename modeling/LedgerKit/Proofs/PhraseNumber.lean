import LedgerKit.Key.Mnemonic
import LedgerKit.Proofs.ByteOrder
import Mathlib.Data.List.Induction

/-!
# The number that a phrase spells

A number is its digits to the base of the word list, and these digits are the number
(`Mnemonic.ofPlaces_places`, `Mnemonic.places_ofPlaces`).  The number of a phrase is the entropy
with the check bits behind it, so the entropy is what is left when they are shifted out
(`Mnemonic.number_shiftRight`), and it has just as many digits as the phrase has words
(`Mnemonic.number_lt`).

* `Mnemonic.ofPlaces?_eq_some_iff` : the only places that spell a mnemonic are those of its words.
-/

namespace LedgerKit.Mnemonic

variable {m : Mnemonic} {ps : List ℕ} {n : ℕ} {e : Bytes}

/-! ### Digits -/

@[simp] theorem length_places (count n : ℕ) : (places count n).length = count := by
  induction count generalizing n with
  | zero => rfl
  | succ count ih => simp [places, ih]

theorem lt_of_mem_places {count p : ℕ} (h : p ∈ places count n) : p < wordCount := by
  induction count generalizing n with
  | zero => simp [places] at h
  | succ count ih =>
    rcases List.mem_append.1 h with h | h
    · exact ih h
    · rw [List.mem_singleton.1 h]
      exact Nat.mod_lt n (by decide)

theorem ofPlaces_snoc (ps : List ℕ) (p : ℕ) :
    ofPlaces (ps ++ [p]) = wordCount * ofPlaces ps + p := by
  simp [ofPlaces]

theorem ofPlaces_places {count : ℕ} (h : n < wordCount ^ count) :
    ofPlaces (places count n) = n := by
  induction count generalizing n with
  | zero =>
    rw [Nat.pow_zero, Nat.lt_one_iff] at h
    rw [h]
    rfl
  | succ count ih =>
    have hn : n / wordCount < wordCount ^ count := by
      rw [Nat.pow_succ] at h
      exact Nat.div_lt_of_lt_mul (by rwa [Nat.mul_comm])
    rw [places, ofPlaces_snoc, ih hn, Nat.div_add_mod]

theorem places_ofPlaces (h : ∀ p ∈ ps, p < wordCount) : places ps.length (ofPlaces ps) = ps := by
  induction ps using List.reverseRecOn with
  | nil => rfl
  | append_singleton ps p ih =>
    have hp : p < wordCount := h p (by simp)
    have hps : ∀ q ∈ ps, q < wordCount := fun q hq => h q (by simp [hq])
    have hquotient : (wordCount * ofPlaces ps + p) / wordCount = ofPlaces ps := by
      rw [Nat.mul_add_div (by decide), Nat.div_eq_of_lt hp, Nat.add_zero]
    have hremainder : (wordCount * ofPlaces ps + p) % wordCount = p := by
      rw [Nat.mul_add_mod, Nat.mod_eq_of_lt hp]
    rw [List.length_append, List.length_singleton, places, ofPlaces_snoc, hquotient, hremainder,
      ih hps]

/-! ### Sizes -/

theorem isEntropySize_iff : isEntropySize n = true ↔ n ∈ [16, 20, 24, 28, 32] := by
  simp only [isEntropySize, Bool.and_eq_true, decide_eq_true_eq, beq_iff_eq, List.mem_cons,
    List.not_mem_nil, or_false]
  omega

theorem size_mem (m : Mnemonic) : m.entropy.length ∈ [16, 20, 24, 28, 32] :=
  isEntropySize_iff.1 m.size_ok

/-- There are from four to eight groups of four bytes. -/
theorem groups_of_mem (h : n ∈ [16, 20, 24, 28, 32]) : 4 ≤ n / 4 ∧ n / 4 ≤ 8 ∧ n = 4 * (n / 4) := by
  simp only [List.mem_cons, List.not_mem_nil, or_false] at h
  omega

theorem isWordCount_size (m : Mnemonic) : isWordCount m.size = true := by
  obtain ⟨hmin, hmax, -⟩ := groups_of_mem m.size_mem
  simp only [isWordCount, Bool.and_eq_true, decide_eq_true_eq, beq_iff_eq]
  rw [size]
  omega

/-! ### Entropy and check bits -/

/-- There is one check bit for every group. -/
theorem checkBits_lt (h : e.length / 4 ≤ 8) : checkBits e < 2 ^ (e.length / 4) := by
  have hfirst : Bytes.bigEndian ((Sha2.sha256.digest e).toBytes.take 1) < 256 ^ 1 := by
    refine Nat.lt_of_lt_of_le (Bytes.bigEndian_lt _) (Nat.pow_le_pow_right (by decide) ?_)
    rw [List.length_take]
    exact Nat.min_le_left _ _
  have hbits : 256 ^ 1 = 2 ^ (8 - e.length / 4) * 2 ^ (e.length / 4) := by
    rw [← Nat.pow_add, Nat.sub_add_cancel h]
    rfl
  rw [checkBits, Nat.shiftRight_eq_div_pow]
  exact Nat.div_lt_of_lt_mul (hbits ▸ hfirst)

theorem number_eq (e : Bytes) :
    number e = Bytes.bigEndian e * 2 ^ (e.length / 4) + checkBits e := by
  rw [number, Nat.shiftLeft_eq]

theorem number_shiftRight (h : e.length / 4 ≤ 8) :
    number e >>> (e.length / 4) = Bytes.bigEndian e := by
  have hcheck := checkBits_lt h
  rw [number_eq, Nat.shiftRight_eq_div_pow, Nat.mul_comm, Nat.mul_add_div (Nat.two_pow_pos _),
    Nat.div_eq_of_lt hcheck, Nat.add_zero]

/-- The number of a phrase has three digits for every group. -/
theorem number_lt (h : e.length ∈ [16, 20, 24, 28, 32]) :
    number e < wordCount ^ (e.length / 4 * 3) := by
  obtain ⟨-, hmax, hlength⟩ := groups_of_mem h
  have hentropy : Bytes.bigEndian e < 2 ^ (32 * (e.length / 4)) := by
    have hvalue := Bytes.bigEndian_lt e
    rw [hlength, Nat.pow_mul] at hvalue
    rwa [Nat.pow_mul]
  have hcheck := checkBits_lt hmax
  calc number e
      = Bytes.bigEndian e * 2 ^ (e.length / 4) + checkBits e := number_eq e
    _ < Bytes.bigEndian e * 2 ^ (e.length / 4) + 2 ^ (e.length / 4) := Nat.add_lt_add_left hcheck _
    _ = (Bytes.bigEndian e + 1) * 2 ^ (e.length / 4) := (Nat.succ_mul _ _).symm
    _ ≤ 2 ^ (32 * (e.length / 4)) * 2 ^ (e.length / 4) := Nat.mul_le_mul_right _ hentropy
    _ = wordCount ^ (e.length / 4 * 3) := by
      rw [← Nat.pow_add, wordCount, show 2048 = 2 ^ 11 from rfl, ← Nat.pow_mul]
      congr 1
      omega

/-! ### Places that spell a mnemonic -/

/-- The places of the words of a mnemonic. -/
def wordPlaces (m : Mnemonic) : List ℕ := places m.size (number m.entropy)

theorem ofPlaces_wordPlaces (m : Mnemonic) : ofPlaces m.wordPlaces = number m.entropy :=
  ofPlaces_places (number_lt m.size_mem)

theorem ofPlaces?_wordPlaces (m : Mnemonic) : ofPlaces? m.wordPlaces = some m := by
  obtain ⟨-, hmax, hlength⟩ := groups_of_mem m.size_mem
  have hgroups : m.wordPlaces.length / 3 = m.entropy.length / 4 := by
    rw [wordPlaces, length_places, size]
    omega
  have hentropy : Bytes.ofNatBE (4 * (m.wordPlaces.length / 3))
      (ofPlaces m.wordPlaces >>> (m.wordPlaces.length / 3)) = m.entropy := by
    rw [hgroups, ofPlaces_wordPlaces, number_shiftRight hmax, ← hlength, Bytes.ofNatBE_bigEndian]
  simp only [ofPlaces?, hentropy]
  exact dif_pos ⟨m.size_ok, m.ofPlaces_wordPlaces.symm⟩

theorem wordPlaces_of_ofPlaces? (hcount : isWordCount ps.length = true)
    (hps : ∀ p ∈ ps, p < wordCount) (h : ofPlaces? ps = some m) : m.wordPlaces = ps := by
  simp only [isWordCount, Bool.and_eq_true, decide_eq_true_eq, beq_iff_eq] at hcount
  simp only [ofPlaces?] at h
  split at h
  · next hspelt =>
    obtain rfl := Option.some.inj h
    have hsize : (4 * (ps.length / 3)) / 4 * 3 = ps.length := by omega
    rw [wordPlaces, size, hspelt.2, Bytes.length_ofNatBE, hsize, places_ofPlaces hps]
  · cases h

theorem ofPlaces?_eq_some_iff (hcount : isWordCount ps.length = true)
    (hps : ∀ p ∈ ps, p < wordCount) : ofPlaces? ps = some m ↔ m.wordPlaces = ps :=
  ⟨wordPlaces_of_ofPlaces? hcount hps, fun h => h ▸ m.ofPlaces?_wordPlaces⟩

end LedgerKit.Mnemonic
