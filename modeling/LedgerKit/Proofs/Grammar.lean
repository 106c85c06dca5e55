import LedgerKit.Id.Entity
import Mathlib.Data.Nat.Notation

/-!
# The texts of entity ids

Reading and writing are inverse to each other: a text is read as an id if and only if it is the
written form of that id, letters included.  This is shown for the three numbers
(`EntityNumber.ofChars?_eq_some_iff`), for the letters (`Checksum.ofChars?_eq_some_iff`) and for the
two together (`EntityId.ofChars?_eq_some_iff`).  The written numbers are an address of at most 62
characters.
-/

namespace LedgerKit

/-- The text of an address: ASCII digits and dots. -/
def IsAddress (cs : List Char) : Prop := ∀ c ∈ cs, c = '.' ∨ c.isDigit = true

instance (cs : List Char) : Decidable (IsAddress cs) :=
  inferInstanceAs (Decidable (∀ c ∈ cs, c = '.' ∨ c.isDigit = true))

/-- No character of an address is a dash. -/
theorem IsAddress.dash_notMem {cs : List Char} (h : IsAddress cs) : '-' ∉ cs := by
  intro hdash
  rcases h _ hdash with hd | hd
  · exact absurd hd (by decide)
  · exact absurd hd (by decide)

/-! ### Cutting at a separator -/

namespace Text

theorem splitOnce_of_notMem {sep : Char} {cs : List Char} (h : sep ∉ cs) :
    splitOnce sep cs = (cs, none) := by
  induction cs with
  | nil => rfl
  | cons c cs ih =>
    simp only [List.mem_cons, not_or] at h
    simp only [splitOnce, if_neg (Ne.symm h.1), ih h.2]

theorem splitOnce_append {sep : Char} {before : List Char} (h : sep ∉ before)
    (after : List Char) : splitOnce sep (before ++ sep :: after) = (before, some after) := by
  induction before with
  | nil => simp [splitOnce]
  | cons b before ih =>
    simp only [List.mem_cons, not_or] at h
    simp only [List.cons_append, splitOnce, if_neg (Ne.symm h.1), ih h.2]

end Text

/-! ### The three numbers -/

namespace EntityNumber

theorem isAddress_toDigits (n : ℕ) : IsAddress (Nat.toDigits 10 n) :=
  fun _ hc => .inr (Nat.isDigit_of_mem_toDigits (by decide) (by decide) hc)

theorem dot_notMem_toDigits (n : ℕ) : '.' ∉ Nat.toDigits 10 n := by
  intro hc
  have hdigit := Nat.isDigit_of_mem_toDigits (by decide) (by decide) hc
  exact absurd hdigit (by decide)

theorem isAddress_chars (n : EntityNumber) : IsAddress n.chars := by
  intro c hc
  simp only [chars, List.mem_append, List.mem_cons] at hc
  obtain (hc | rfl | hc) | rfl | hc := hc
  · exact isAddress_toDigits _ c hc
  · exact .inl rfl
  · exact isAddress_toDigits _ c hc
  · exact .inl rfl
  · exact isAddress_toDigits _ c hc

/-- Three numbers of 64 bits and two dots take up at most 62 characters. -/
theorem length_chars_le (n : EntityNumber) : n.chars.length ≤ 62 := by
  have hlen : ∀ w : UInt64, (Nat.toDigits 10 w.toNat).length ≤ 20 := by
    intro w
    have hw := w.toNat_lt
    rw [Nat.length_toDigits_le_iff (by decide) (by decide)]
    omega
  have h₁ := hlen n.shard
  have h₂ := hlen n.realm
  have h₃ := hlen n.num
  simp only [chars, List.length_append, List.length_cons]
  omega

/-- The numbers stand between the dots. -/
theorem splitOn_chars (n : EntityNumber) :
    n.chars.splitOn '.' =
      [Nat.toDigits 10 n.shard.toNat, Nat.toDigits 10 n.realm.toNat,
        Nat.toDigits 10 n.num.toNat] := by
  rw [chars, List.append_assoc, List.cons_append,
    List.splitOn_append_cons_self_of_not_mem (dot_notMem_toDigits _),
    List.splitOn_append_cons_self_of_not_mem (dot_notMem_toDigits _),
    List.splitOn_eq_singleton (dot_notMem_toDigits _)]

theorem ofChars?_eq_some_iff {cs : List Char} {n : EntityNumber} :
    ofChars? cs = some n ↔ cs = n.chars := by
  constructor
  · intro h
    unfold ofChars? at h
    split at h
    · next shard realm num hcut =>
      simp only [Option.bind_eq_bind, Option.bind_eq_some_iff, Option.pure_def, Option.some.injEq]
        at h
      obtain ⟨s, hs, r, hr, m, hm, rfl⟩ := h
      rw [Decimal.ofChars64?_eq_some_iff] at hs hr hm
      -- the parts with dots between them are the text that was cut
      have hjoin : ['.'].intercalate (cs.splitOn '.') = cs := List.intercalate_splitOn '.'
      rw [← hjoin, hcut, hs, hr, hm]
      simp [chars]
    · cases h
  · rintro rfl
    unfold ofChars?
    rw [splitOn_chars]
    simp only [Decimal.ofChars64?_eq_some_iff.2 rfl]
    rfl

end EntityNumber

/-! ### The letters -/

namespace Checksum

theorem toNat_letter (n : ℕ) : (letter n).toNat = 97 + n % 26 := by
  have hvalid : (97 + n % 26).isValidChar := .inl (by omega)
  have hletter : letter n = Char.ofNatAux (97 + n % 26) hvalid := dif_pos hvalid
  rw [hletter]
  rfl

theorem letterValue?_eq_some_iff {c : Char} {d : Fin 26} :
    letterValue? c = some d ↔ c = letter d := by
  rw [← Char.toNat_inj, toNat_letter, letterValue?]
  split
  · rw [Option.some.injEq, Fin.ext_iff]
    have := d.isLt
    dsimp only
    omega
  · have := d.isLt
    simp only [reduceCtorEq, false_iff]
    omega

/-- A number below `26 ^ 5` has five digits to the base 26. -/
theorem exists_ofDigits (k : Checksum) : ∃ a b c d e, k = ofDigits a b c d e := by
  obtain ⟨n, hn⟩ := k
  simp only [checksumCount] at hn
  refine ⟨⟨n / 26 / 26 / 26 / 26, by omega⟩, ⟨n / 26 / 26 / 26 % 26, by omega⟩,
    ⟨n / 26 / 26 % 26, by omega⟩, ⟨n / 26 % 26, by omega⟩, ⟨n % 26, by omega⟩, ?_⟩
  simp only [ofDigits, mk.injEq, Fin.mk.injEq]
  omega

theorem letters_ofDigits (a b c d e : Fin 26) :
    (ofDigits a b c d e).letters = [letter a, letter b, letter c, letter d, letter e] := by
  have := a.isLt
  have := b.isLt
  have := c.isLt
  have := d.isLt
  have := e.isLt
  simp only [letters, ofDigits, letter, List.cons.injEq, and_true]
  refine ⟨?_, ?_, ?_, ?_, ?_⟩ <;> congr 2 <;> omega

theorem ofChars?_eq_some_iff {cs : List Char} {k : Checksum} :
    ofChars? cs = some k ↔ cs = k.letters := by
  constructor
  · intro h
    unfold ofChars? at h
    split at h
    · simp only [Option.bind_eq_bind, Option.bind_eq_some_iff, Option.pure_def,
        Option.some.injEq, letterValue?_eq_some_iff] at h
      obtain ⟨a, rfl, b, rfl, c, rfl, d, rfl, e, rfl, rfl⟩ := h
      rw [letters_ofDigits]
    · cases h
  · rintro rfl
    obtain ⟨a, b, c, d, e, rfl⟩ := exists_ofDigits k
    rw [letters_ofDigits]
    simp only [ofChars?, letterValue?_eq_some_iff.2 rfl]
    rfl

theorem letters_inj {j k : Checksum} : j.letters = k.letters ↔ j = k := by
  rw [← ofChars?_eq_some_iff, ofChars?_eq_some_iff.2 rfl, Option.some.injEq]

end Checksum

/-! ### Numbers and letters -/

namespace EntityId

/-- An id is read from its written form, with the letters attached to it, and from no other text. -/
theorem ofChars?_eq_some_iff {cs : List Char} {id : EntityId} :
    ofChars? cs = some id ↔ cs = id.chars := by
  constructor
  · intro h
    -- the letters begin after the first dash, if there is one
    by_cases hdash : '-' ∈ cs
    · obtain ⟨before, after, rfl, hbefore⟩ := List.eq_append_cons_of_mem hdash
      rw [ofChars?, Text.splitOnce_append hbefore] at h
      simp only [Option.bind_eq_bind, Option.bind_eq_some_iff, Option.pure_def,
        Option.some.injEq, Checksum.ofChars?_eq_some_iff, EntityNumber.ofChars?_eq_some_iff] at h
      obtain ⟨k, rfl, n, rfl, rfl⟩ := h
      rfl
    · rw [ofChars?, Text.splitOnce_of_notMem hdash] at h
      simp only [Option.map_eq_some_iff, EntityNumber.ofChars?_eq_some_iff] at h
      obtain ⟨n, rfl, rfl⟩ := h
      rfl
  · rintro rfl
    have hdash := id.number.isAddress_chars.dash_notMem
    obtain ⟨n, k⟩ := id
    cases k with
    | none =>
      rw [chars, ofChars?, Text.splitOnce_of_notMem hdash]
      simp only [EntityNumber.ofChars?_eq_some_iff.2 rfl, Option.map_some]
    | some k =>
      rw [chars, ofChars?, Text.splitOnce_append hdash]
      simp only [EntityNumber.ofChars?_eq_some_iff.2 rfl, Checksum.ofChars?_eq_some_iff.2 rfl]
      rfl

/-- A text that ends in a dash and the letters of a checksum is read as an id with that checksum. -/
theorem ofChars?_append_letters {cs : List Char} {k : Checksum} {id : EntityId}
    (h : ofChars? (cs ++ '-' :: k.letters) = some id) :
    cs = id.number.chars ∧ id.checksum = some k := by
  rw [ofChars?_eq_some_iff] at h
  have hdash := id.number.isAddress_chars.dash_notMem
  unfold chars at h
  split at h
  · -- without a checksum the id has no dash in its text
    exact absurd (h ▸ List.mem_append_right cs List.mem_cons_self) hdash
  · next k' hk' =>
    have hlen : ('-' :: k.letters).length = ('-' :: k'.letters).length := rfl
    obtain ⟨hnum, hletters⟩ := List.append_inj' h hlen
    have hk : Checksum.ofChars? k.letters = some k' :=
      Checksum.ofChars?_eq_some_iff.2 (List.cons.inj hletters).2
    rw [Checksum.ofChars?_eq_some_iff.2 rfl] at hk
    exact ⟨hnum, hk' ▸ hk.symm⟩

end EntityId

end LedgerKit
