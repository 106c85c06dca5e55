import LedgerKit.Proofs.Hexadecimal
import LedgerKit.Proofs.IdText
import LedgerKit.Proofs.Digest
import Mathlib.Algebra.BigOperators.Fin
import Mathlib.Algebra.BigOperators.Ring.Finset

/-!
# The checksum as it is published

The checksum is computed in 64-bit words that are reduced at every step.  Its published definition
is one formula over the natural numbers (`Checksum.published`), in which the sums over all digits
are reduced only at the end.

Nothing wraps around on the way: `Checksum.computeChecked` goes through the same operations, in the
same order, and stops at the first whose result 64 bits do not hold.  It never stops for that
(`Checksum.computeChecked_eq`).
-/

namespace LedgerKit

/-! ### Sums over the positions of digits -/

/-- The sum of the digits whose positions, counted from zero, are `r` modulo 2. -/
def sumAt (r : ℕ) (ds : List ℕ) : ℕ := ∑ i : Fin ds.length, if (i : ℕ) % 2 = r then ds[i] else 0

/-- The sum of the digits, each times the power of 31 for its position from the end. -/
def weightedSum (ds : List ℕ) : ℕ := ∑ i : Fin ds.length, ds[i] * 31 ^ (ds.length - 1 - i)

theorem alternateSum_eq_sum (r : ℕ) (ds : List ℕ) :
    alternateSum r ds = ∑ i : Fin ds.length, if (r + i) % 2 = 0 then ds[i] else 0 := by
  induction ds generalizing r with
  | nil => rfl
  | cons d ds ih =>
    simp only [List.length_cons]
    rw [alternateSum, ih, Fin.sum_univ_succ]
    refine congrArg₂ _ rfl (Finset.sum_congr rfl fun i _ => if_congr ?_ rfl rfl)
    rw [Fin.val_succ, Nat.add_assoc, Nat.add_comm 1]

theorem sumAt_zero (ds : List ℕ) : sumAt 0 ds = alternateSum 0 ds := by
  rw [alternateSum_eq_sum]
  simp only [sumAt, Nat.zero_add]

theorem sumAt_one (ds : List ℕ) : sumAt 1 ds = alternateSum 1 ds := by
  rw [alternateSum_eq_sum]
  refine Finset.sum_congr rfl fun i _ => if_congr ?_ rfl rfl
  omega

theorem weightedSum_eq_spelt (ds : List ℕ) : weightedSum ds = spelt ds := by
  induction ds with
  | nil => rfl
  | cons d ds ih =>
    rw [spelt_cons, ← ih]
    simp only [weightedSum, List.length_cons]
    rw [Fin.sum_univ_succ]
    refine congrArg₂ _ (Nat.mul_comm _ _) (Finset.sum_congr rfl fun i _ => ?_)
    -- the first digit does not count for the position of a later one from the end
    have hexp : ds.length + 1 - 1 - (i.succ : ℕ) = ds.length - 1 - i := by
      rw [Fin.val_succ]
      omega
    rw [hexp]
    rfl

/-! ### Words that must not wrap around -/

/-- Why a checked computation of a checksum stops. -/
inductive CheckedError where
  /-- 64 bits do not hold the result of an operation. -/
  | overflow
  /-- The text has no checksum. -/
  | refused (e : IdError)

theorem ok_bind {ε α β : Type} (a : α) (f : α → Except ε β) : (Except.ok a >>= f) = f a := rfl

/-- The sum, if 64 bits hold it. -/
def checkedAdd (a b : UInt64) : Except CheckedError UInt64 :=
  if a.toNat + b.toNat < UInt64.size then .ok (a + b) else .error .overflow

/-- The product, if 64 bits hold it. -/
def checkedMul (a b : UInt64) : Except CheckedError UInt64 :=
  if a.toNat * b.toNat < UInt64.size then .ok (a * b) else .error .overflow

theorem checkedAdd_of_le {a b : UInt64} {m n : ℕ} (ha : a.toNat ≤ m) (hb : b.toNat ≤ n)
    (h : m + n < UInt64.size) : checkedAdd a b = .ok (a + b) ∧ (a + b).toNat ≤ m + n := by
  have hle := Nat.add_le_add ha hb
  have hlt := Nat.lt_of_le_of_lt hle h
  refine ⟨if_pos hlt, ?_⟩
  rwa [UInt64.toNat_add, Nat.mod_eq_of_lt hlt]

theorem checkedMul_of_le {a b : UInt64} {m n : ℕ} (ha : a.toNat ≤ m) (hb : b.toNat ≤ n)
    (h : m * n < UInt64.size) : checkedMul a b = .ok (a * b) ∧ (a * b).toNat ≤ m * n := by
  have hle := Nat.mul_le_mul ha hb
  have hlt := Nat.lt_of_le_of_lt hle h
  refine ⟨if_pos hlt, ?_⟩
  rwa [UInt64.toNat_mul, Nat.mod_eq_of_lt hlt]

namespace AddressTally

/-- Takes one more digit into account, if 64 bits hold all results. -/
def pushChecked (t : AddressTally) (d : UInt64) : Except CheckedError AddressTally := do
  let weighted ← checkedAdd (← checkedMul addressRadix t.weighted) d
  if t.count % 2 = 0 then
    let even ← checkedAdd t.even d
    return ⟨t.count + 1, even % 11, t.odd, weighted % addressModulus⟩
  else
    let odd ← checkedAdd t.odd d
    return ⟨t.count + 1, t.even, odd % 11, weighted % addressModulus⟩

/-- Takes a character of a text into account, which must stand for a digit. -/
def readChecked (text : String) (t : AddressTally) (c : Char) : Except CheckedError AddressTally :=
  match addressDigit? c with
  | some d => t.pushChecked d
  | none => .error (.refused (.malformed text))

/-- The four numbers packed into one, if 64 bits hold all results. -/
def packedChecked (t : AddressTally) : Except CheckedError UInt64 := do
  let counted ← checkedAdd (← checkedMul (UInt64.ofNat (t.count % 5)) 11) t.even
  let summed ← checkedAdd (← checkedMul counted 11) t.odd
  checkedAdd (← checkedMul summed addressModulus) t.weighted

end AddressTally

/-- Takes one more byte into the term of a ledger, if 64 bits hold all results. -/
def LedgerId.pushChecked (h : UInt64) (b : UInt8) : Except CheckedError UInt64 := do
  let sum ← checkedAdd (← checkedMul addressRadix h) b.toUInt64
  return sum % checksumModulus

/-- The term of a ledger, if 64 bits hold all results. -/
def LedgerId.termChecked (l : LedgerId) : Except CheckedError UInt64 :=
  (l.bytes ++ List.replicate 6 0).foldlM LedgerId.pushChecked 0

/-- The checksum on a ledger of some digits, if 64 bits hold all results. -/
def AddressTally.checksumChecked (t : AddressTally) (l : LedgerId) :
    Except CheckedError Checksum := do
  let sum ← checkedAdd (← t.packedChecked) (← l.termChecked)
  let product ← checkedMul (sum % checksumModulus) checksumSpread
  return .ofWord (product % checksumModulus)

/-- The checksum on a ledger of a text, if 64 bits hold the result of every operation on the way. -/
def Checksum.computeChecked (l : LedgerId) (text : String) : Except CheckedError Checksum := do
  let t ← text.toList.foldlM (AddressTally.readChecked text) .empty
  t.checksumChecked l

theorem addressDigit?_eq_none_iff {c : Char} :
    addressDigit? c = none ↔ ¬ (c = '.' ∨ c.isDigit = true) := by
  constructor
  · intro h hc
    rw [addressDigit?_eq_some hc] at h
    cases h
  · intro h
    rw [not_or] at h
    rw [addressDigit?, if_neg h.1, if_neg h.2]

theorem mapM_addressDigit?_eq_none {cs : List Char} (h : ¬ IsAddress cs) :
    cs.mapM addressDigit? = none := by
  rw [mapM_eq_none_iff]
  simp only [IsAddress, not_forall] at h
  obtain ⟨c, hc, hnot⟩ := h
  exact ⟨c, hc, addressDigit?_eq_none_iff.2 hnot⟩

theorem le_of_addressDigit? {c : Char} {d : UInt64} (h : addressDigit? c = some d) :
    d.toNat ≤ 10 := by
  have hc : c = '.' ∨ c.isDigit = true := by
    by_contra hnot
    rw [addressDigit?_eq_none_iff.2 hnot] at h
    cases h
  have hlt := addressDigit_lt hc
  rw [addressDigit?_eq_some hc] at h
  obtain rfl := Option.some.inj h
  rw [UInt64.toNat_ofNat_of_lt' (by rw [UInt64.size]; omega)]
  exact Nat.le_of_lt_succ hlt

namespace AddressTally

variable {t : AddressTally} {ds : List ℕ}

theorem TallyOf.even_le (h : t.TallyOf ds) : t.even.toNat ≤ 10 :=
  h.even ▸ Nat.le_of_lt_succ (Nat.mod_lt _ (by decide))

theorem TallyOf.odd_le (h : t.TallyOf ds) : t.odd.toNat ≤ 10 :=
  h.odd ▸ Nat.le_of_lt_succ (Nat.mod_lt _ (by decide))

theorem TallyOf.weighted_le (h : t.TallyOf ds) : t.weighted.toNat ≤ 17575 :=
  h.weighted ▸ Nat.le_of_lt_succ (Nat.mod_lt _ (by decide))

theorem TallyOf.pushChecked (h : t.TallyOf ds) {d : UInt64} (hd : d.toNat ≤ 10) :
    t.pushChecked d = .ok (t.push d) := by
  obtain ⟨hproduct, hle⟩ := checkedMul_of_le addressRadix.toNat.le_refl h.weighted_le (by decide)
  obtain ⟨hsum, -⟩ := checkedAdd_of_le hle hd (by decide)
  obtain ⟨heven, -⟩ := checkedAdd_of_le h.even_le hd (by decide)
  obtain ⟨hodd, -⟩ := checkedAdd_of_le h.odd_le hd (by decide)
  rw [AddressTally.pushChecked, hproduct, ok_bind, hsum, ok_bind, heven, hodd, ok_bind, ok_bind,
    AddressTally.push]
  split <;> rfl

/-- Reading a text stops at a character that is no digit, and for nothing else. -/
theorem TallyOf.foldlM_readChecked (h : t.TallyOf ds) (text : String) (cs : List Char) :
    cs.foldlM (readChecked text) t =
      match cs.mapM addressDigit? with
      | some es => .ok (es.foldl AddressTally.push t)
      | none => .error (.refused (.malformed text)) := by
  induction cs generalizing t ds with
  | nil => rfl
  | cons c cs ih =>
    rw [List.foldlM_cons, List.mapM_cons, readChecked]
    cases hc : addressDigit? c with
    | none => rfl
    | some d =>
      have hd := le_of_addressDigit? hc
      simp only [h.pushChecked hd, bind, Except.bind, Option.bind,
        ih (h.push (Nat.lt_succ_of_le hd))]
      cases cs.mapM addressDigit? <;> rfl

theorem TallyOf.packedChecked (h : t.TallyOf ds) : t.packedChecked = .ok t.packed := by
  have hcount : (UInt64.ofNat (t.count % 5)).toNat ≤ 4 := by
    rw [UInt64.toNat_ofNat_of_lt' (by rw [UInt64.size]; omega)]
    omega
  -- each operation is checked by the bound of the one before it
  obtain ⟨h₁, le₁⟩ := checkedMul_of_le hcount (11 : UInt64).toNat.le_refl (by decide)
  obtain ⟨h₂, le₂⟩ := checkedAdd_of_le le₁ h.even_le (by decide)
  obtain ⟨h₃, le₃⟩ := checkedMul_of_le le₂ (11 : UInt64).toNat.le_refl (by decide)
  obtain ⟨h₄, le₄⟩ := checkedAdd_of_le le₃ h.odd_le (by decide)
  obtain ⟨h₅, le₅⟩ := checkedMul_of_le le₄ addressModulus.toNat.le_refl (by decide)
  obtain ⟨h₆, -⟩ := checkedAdd_of_le le₅ h.weighted_le (by decide)
  rw [AddressTally.packedChecked, h₁, ok_bind, h₂, ok_bind, h₃, ok_bind, h₄, ok_bind, h₅, ok_bind,
    h₆]
  rfl

end AddressTally

namespace LedgerId

theorem pushChecked_of_le {h : UInt64} (hh : h.toNat ≤ checksumModulus.toNat) (b : UInt8) :
    pushChecked h b = .ok ((addressRadix * h + b.toUInt64) % checksumModulus) := by
  have hb : b.toUInt64.toNat ≤ 255 := Nat.le_of_lt_succ b.toNat_lt
  obtain ⟨hproduct, hle⟩ := checkedMul_of_le addressRadix.toNat.le_refl hh (by decide)
  obtain ⟨hsum, -⟩ := checkedAdd_of_le hle hb (by decide)
  rw [pushChecked, hproduct, ok_bind, hsum, ok_bind]
  rfl

theorem foldlM_pushChecked {h : UInt64} (hh : h.toNat ≤ checksumModulus.toNat) (bs : Bytes) :
    bs.foldlM pushChecked h =
      .ok (bs.foldl (fun h b => (addressRadix * h + b.toUInt64) % checksumModulus) h) := by
  induction bs generalizing h with
  | nil => rfl
  | cons b bs ih =>
    rw [List.foldlM_cons, pushChecked_of_le hh]
    refine ih ?_
    rw [UInt64.toNat_mod]
    exact (Nat.mod_lt _ (by decide)).le

theorem termChecked_eq (l : LedgerId) : l.termChecked = .ok l.term :=
  foldlM_pushChecked (Nat.zero_le _) _

theorem term_le (l : LedgerId) : l.term.toNat ≤ 26 ^ 5 := by
  rw [toNat_term]
  exact (Nat.mod_lt _ (by decide)).le

end LedgerId

/-! ### The formula -/

namespace Checksum

theorem checksumChecked_of_tallyOf {t : AddressTally} {ds : List ℕ} (h : t.TallyOf ds)
    (l : LedgerId) : t.checksumChecked l =
      .ok (ofWord ((t.packed + l.term) % checksumModulus * checksumSpread % checksumModulus)) := by
  have hpacked := (pack_lt ds).le
  rw [← h.packed] at hpacked
  have hreduced : ((t.packed + l.term) % checksumModulus).toNat ≤ checksumModulus.toNat := by
    rw [UInt64.toNat_mod]
    exact (Nat.mod_lt _ (by decide)).le
  obtain ⟨hsum, -⟩ := checkedAdd_of_le hpacked l.term_le (by decide)
  obtain ⟨hproduct, -⟩ := checkedMul_of_le hreduced checksumSpread.toNat.le_refl (by decide)
  rw [AddressTally.checksumChecked, h.packedChecked, ok_bind, l.termChecked_eq, ok_bind, hsum,
    ok_bind, hproduct, ok_bind]
  rfl

/-- No operation leaves 64 bits, and the checksum is the one that is computed; a text without one is
refused for that. -/
theorem computeChecked_eq (l : LedgerId) (text : String) :
    computeChecked l text = (compute l text).mapError .refused := by
  have hread := AddressTally.tallyOf_empty.foldlM_readChecked text text.toList
  unfold computeChecked compute
  by_cases h : IsAddress text.toList
  · rw [h.mapM_addressDigit?] at hread ⊢
    rw [hread]
    exact checksumChecked_of_tallyOf (AddressTally.tallyOf_ofDigits h.lt_of_mem_map) l
  · rw [mapM_addressDigit?_eq_none h] at hread ⊢
    rw [hread]
    rfl

/-- The number of the checksum on a ledger of a text, with sums that are reduced at the end only. -/
def published (l : LedgerId) (text : String) : ℕ :=
  let n := (Text.utf8 text).length
  let ds := text.toList.map addressDigit
  ((((n % 5) * 11 + sumAt 0 ds % 11) * 11 + sumAt 1 ds % 11) * 26 ^ 3 + weightedSum ds % 26 ^ 3
    + weightedSum l.digits % 26 ^ 5) * 1000003 % 26 ^ 5

theorem length_utf8_of_isAddress {text : String} (h : IsAddress text.toList) :
    (Text.utf8 text).length = text.toList.length := by
  have hascii : ∀ c ∈ text.toList, c.toNat < 0x80 := by
    intro c hc
    have hdigit := addressDigit_lt (h c hc)
    unfold addressDigit at hdigit
    split at hdigit
    · next hdot => simp [hdot]
    · omega
  rw [Text.utf8, Text.utf8Chars_of_ascii hascii, List.length_map]

theorem value_digest_eq_published (l : LedgerId) {text : String} (h : IsAddress text.toList) :
    (digest l (text.toList.map addressDigit)).value.val = published l text := by
  rw [value_digest, published, length_utf8_of_isAddress h, sumAt_zero, sumAt_one,
    weightedSum_eq_spelt, weightedSum_eq_spelt, pack, List.length_map]
  exact ((Nat.mod_modEq (spelt l.digits) (26 ^ 5)).symm.add_left _).mul_right 1000003

/-- The letters are the digits to the base 26, the most significant first. -/
theorem letters_eq_map (c : Checksum) :
    c.letters = (List.range 5).map fun i =>
      Char.ofNat ('a'.toNat + c.value.val / 26 ^ (4 - i) % 26) := by
  simp [letters, letter, List.range_succ, Nat.div_div_eq_div_mul]

/-- **The checksum is the published one, and nothing wraps around.**  On every ledger the checksum
of a text of digits and dots has five letters from `a` to `z`, the digits of the published number to
the base 26, most significant first; every other text is refused with an error that quotes it.
Checking on the way that 64 bits hold the result of every operation makes no difference. -/
theorem compute_published (l : LedgerId) (text : String) :
    (IsAddress text.toList → ∃ c, compute l text = .ok c ∧
      (c.letters = (List.range 5).map fun i =>
        Char.ofNat ('a'.toNat + published l text / 26 ^ (4 - i) % 26)) ∧
      IsLetters c.letters) ∧
    (¬ IsAddress text.toList → compute l text = .error (.malformed text)) ∧
    computeChecked l text = (compute l text).mapError .refused := by
  refine ⟨fun h => ⟨_, compute_eq_digest l h, ?_, isLetters_iff.2 ⟨_, rfl⟩⟩, fun h => ?_,
    computeChecked_eq l text⟩
  · rw [letters_eq_map, value_digest_eq_published l h]
  · rw [compute, mapM_addressDigit?_eq_none h]

end Checksum

end LedgerKit
