import LedgerKit.Proofs.Grammar
import LedgerKit.Proofs.Lists
import Mathlib.Algebra.Order.Ring.Nat
import Mathlib.Data.Int.ModEq
import Mathlib.Data.Nat.Digits.Defs
import Mathlib.Tactic.NormNum.GCD

/-!
# The number of a checksum

The checksum of a text is computed in 64-bit words.  Here it is the same formula over the natural
numbers, where nothing can wrap around (`Checksum.compute_eq_digest`), and two texts have the same
checksum on a ledger if and only if the four numbers agree that are taken from their digits
(`Checksum.digest_eq_iff`): packing them, adding the term of the ledger and multiplying lose
nothing.
-/

namespace LedgerKit

/-! ### Digits of an address -/

/-- The digit that a character of an address stands for. -/
def addressDigit (c : Char) : ℕ := if c = '.' then 10 else c.toNat - 48

/-- The number that digits to the base 31 spell, the most significant first. -/
def spelt (ds : List ℕ) : ℕ := Nat.ofDigits 31 ds.reverse

/-- The sum of the digits at every other position, from the first if `r` is even, else from the
second. -/
def alternateSum (r : ℕ) : List ℕ → ℕ
  | [] => 0
  | d :: ds => (if r % 2 = 0 then d else 0) + alternateSum (r + 1) ds

theorem spelt_append (as bs : List ℕ) :
    spelt (as ++ bs) = 31 ^ bs.length * spelt as + spelt bs := by
  rw [spelt, List.reverse_append, Nat.ofDigits_append, List.length_reverse, Nat.add_comm]
  rfl

theorem spelt_cons (d : ℕ) (ds : List ℕ) : spelt (d :: ds) = 31 ^ ds.length * d + spelt ds := by
  rw [← List.singleton_append, spelt_append]
  simp [spelt]

theorem spelt_snoc (ds : List ℕ) (d : ℕ) : spelt (ds ++ [d]) = 31 * spelt ds + d := by
  rw [spelt_append]
  simp [spelt]

theorem alternateSum_snoc (r : ℕ) (ds : List ℕ) (d : ℕ) :
    alternateSum r (ds ++ [d]) =
      alternateSum r ds + if (r + ds.length) % 2 = 0 then d else 0 := by
  induction ds generalizing r with
  | nil => simp [alternateSum]
  | cons x ds ih =>
    rw [List.cons_append, alternateSum, ih, alternateSum, List.length_cons, ← Nat.add_assoc,
      Nat.add_assoc r 1, Nat.add_comm 1]

theorem addressDigit_lt {c : Char} (h : c = '.' ∨ c.isDigit = true) : addressDigit c < 11 := by
  unfold addressDigit
  split
  · decide
  · next hc =>
    have hd := h.resolve_left hc
    simp only [Char.isDigit, Bool.and_eq_true, decide_eq_true_eq, UInt32.le_iff_toNat_le] at hd
    have high : c.toNat ≤ 57 := hd.2
    omega

/-! ### The tally of some digits -/

/-- The tally is that of these digits. -/
structure AddressTally.TallyOf (t : AddressTally) (ds : List ℕ) : Prop where
  count : t.count = ds.length
  even : t.even.toNat = alternateSum 0 ds % 11
  odd : t.odd.toNat = alternateSum 1 ds % 11
  weighted : t.weighted.toNat = spelt ds % 26 ^ 3

namespace AddressTally

theorem tallyOf_empty : empty.TallyOf [] := ⟨rfl, rfl, rfl, rfl⟩

theorem TallyOf.push {t : AddressTally} {ds : List ℕ} (h : t.TallyOf ds) {d : UInt64}
    (hd : d.toNat < 11) : (t.push d).TallyOf (ds ++ [d.toNat]) := by
  have heven := Nat.mod_lt (alternateSum 0 ds) (y := 11) (by decide)
  have hodd := Nat.mod_lt (alternateSum 1 ds) (y := 11) (by decide)
  have hweighted := Nat.mod_lt (spelt ds) (y := 26 ^ 3) (by decide)
  rw [← h.even] at heven
  rw [← h.odd] at hodd
  rw [← h.weighted] at hweighted
  -- neither the sums nor the product below reach `2 ^ 64`
  have hsum : ∀ w : UInt64, w.toNat < 11 → ((w + d) % 11).toNat = (w.toNat + d.toNat) % 11 := by
    intro w hw
    rw [UInt64.toNat_mod, UInt64.toNat_add, Nat.mod_eq_of_lt (b := 2 ^ 64) (by omega)]
    rfl
  refine ⟨?_, ?_, ?_, ?_⟩
  · simp [AddressTally.push, h.count]
  · simp only [AddressTally.push, h.count, alternateSum_snoc, Nat.zero_add]
    split
    · rw [hsum _ heven, h.even, Nat.mod_add_mod]
    · exact h.even
  · -- an odd position of the whole is an even one from the second digit on
    simp only [AddressTally.push, h.count, alternateSum_snoc]
    by_cases hp : ds.length % 2 = 0
    · rw [if_pos hp, if_neg (by omega)]
      exact h.odd
    · rw [if_neg hp, if_pos (by omega), hsum _ hodd, h.odd, Nat.mod_add_mod]
  · have hradix : addressRadix.toNat = 31 := rfl
    have hmod : addressModulus.toNat = 26 ^ 3 := rfl
    simp only [AddressTally.push, UInt64.toNat_mod, UInt64.toNat_add, UInt64.toNat_mul, hradix,
      hmod]
    rw [Nat.mod_eq_of_lt (a := 31 * t.weighted.toNat) (by omega), Nat.mod_eq_of_lt (b := 2 ^ 64)
      (by omega), h.weighted, spelt_snoc]
    exact ((Nat.mod_modEq (spelt ds) (26 ^ 3)).mul_left 31).add_right d.toNat

/-- Each digit taken into account is one more digit of the tally. -/
theorem TallyOf.foldl {t : AddressTally} {as : List ℕ} (h : t.TallyOf as) {ds : List UInt64}
    (hds : ∀ d ∈ ds, d.toNat < 11) :
    (ds.foldl AddressTally.push t).TallyOf (as ++ ds.map UInt64.toNat) := by
  induction ds generalizing t as with
  | nil => simpa using h
  | cons d ds ih =>
    have hd : d.toNat < 11 := hds d List.mem_cons_self
    have hrest : ∀ x ∈ ds, x.toNat < 11 := by
      intro x hx
      exact hds x (List.mem_cons_of_mem d hx)
    have hstep := ih (h.push hd) hrest
    rw [List.append_assoc] at hstep
    exact hstep

theorem tallyOf_ofDigits {ds : List UInt64} (hds : ∀ d ∈ ds, d.toNat < 11) :
    (ofDigits ds).TallyOf (ds.map UInt64.toNat) :=
  tallyOf_empty.foldl hds

end AddressTally

/-! ### The four numbers packed into one -/

/-- The number of digits modulo 5, the alternate sums modulo 11 and the spelt number modulo
`26 ^ 3`, as the digits of a number to mixed bases. -/
def pack (ds : List ℕ) : ℕ :=
  ((ds.length % 5 * 11 + alternateSum 0 ds % 11) * 11 + alternateSum 1 ds % 11) * 26 ^ 3
    + spelt ds % 26 ^ 3

theorem pack_lt (ds : List ℕ) : pack ds < 26 ^ 5 := by
  have hspelt := Nat.mod_lt (spelt ds) (y := 26 ^ 3) (by decide)
  unfold pack
  omega

/-- No packed number is lost: the lower ones stay below the base of the next. -/
theorem pack_eq_iff {ds es : List ℕ} :
    pack ds = pack es ↔ ds.length % 5 = es.length % 5 ∧
      alternateSum 0 ds % 11 = alternateSum 0 es % 11 ∧
      alternateSum 1 ds % 11 = alternateSum 1 es % 11 ∧
      spelt ds % 26 ^ 3 = spelt es % 26 ^ 3 := by
  have hds := Nat.mod_lt (spelt ds) (y := 26 ^ 3) (by decide)
  have hes := Nat.mod_lt (spelt es) (y := 26 ^ 3) (by decide)
  unfold pack
  constructor
  · intro h
    -- each quotient by a base leaves what was packed above it
    refine ⟨?_, ?_, ?_, ?_⟩ <;> omega
  · rintro ⟨h₁, h₂, h₃, h₄⟩
    rw [h₁, h₂, h₃, h₄]

theorem AddressTally.TallyOf.packed {t : AddressTally} {ds : List ℕ} (h : t.TallyOf ds) :
    t.packed.toNat = pack ds := by
  have hspelt := Nat.mod_lt (spelt ds) (y := 26 ^ 3) (by decide)
  have hmod : addressModulus.toNat = 26 ^ 3 := rfl
  have heleven : (11 : UInt64).toNat = 11 := rfl
  simp only [AddressTally.packed, UInt64.toNat_add, UInt64.toNat_mul, UInt64.toNat_ofNat', hmod,
    heleven, h.count, h.even, h.odd, h.weighted, pack]
  omega

/-! ### The term of a ledger -/

/-- The digits that the bytes of a ledger and the six zero bytes after them are. -/
def LedgerId.digits (l : LedgerId) : List ℕ := l.bytes.map UInt8.toNat ++ List.replicate 6 0

namespace LedgerId

/-- One more byte taken into the term. -/
theorem toNat_term_step (h : UInt64) (b : UInt8) (as : List ℕ) (hh : h.toNat = spelt as % 26 ^ 5) :
    ((addressRadix * h + b.toUInt64) % checksumModulus).toNat =
      spelt (as ++ [b.toNat]) % 26 ^ 5 := by
  have hb := b.toNat_lt
  have hlt := Nat.mod_lt (spelt as) (y := 26 ^ 5) (by decide)
  rw [← hh] at hlt
  have hradix : addressRadix.toNat = 31 := rfl
  have hmod : checksumModulus.toNat = 26 ^ 5 := rfl
  rw [UInt64.toNat_mod, UInt64.toNat_add, UInt64.toNat_mul, UInt8.toNat_toUInt64, hradix, hmod,
    Nat.mod_eq_of_lt (a := 31 * h.toNat) (by omega), Nat.mod_eq_of_lt (b := 2 ^ 64) (by omega), hh,
    spelt_snoc]
  exact ((Nat.mod_modEq (spelt as) (26 ^ 5)).mul_left 31).add_right b.toNat

theorem toNat_term_foldl (h : UInt64) (bs : List UInt8) (as : List ℕ)
    (hh : h.toNat = spelt as % 26 ^ 5) :
    (bs.foldl (fun h b => (addressRadix * h + b.toUInt64) % checksumModulus) h).toNat =
      spelt (as ++ bs.map UInt8.toNat) % 26 ^ 5 := by
  induction bs generalizing h as with
  | nil => simpa using hh
  | cons b bs ih =>
    have hstep := ih _ _ (toNat_term_step h b as hh)
    rw [List.append_assoc] at hstep
    exact hstep

theorem toNat_term (l : LedgerId) : l.term.toNat = spelt l.digits % 26 ^ 5 := by
  have h := toNat_term_foldl 0 (l.bytes ++ List.replicate 6 0) [] rfl
  rw [List.map_append, List.map_replicate, List.nil_append] at h
  exact h

end LedgerId

/-! ### The checksum as a number -/

theorem addressDigit?_eq_some {c : Char} (h : c = '.' ∨ c.isDigit = true) :
    addressDigit? c = some (UInt64.ofNat (addressDigit c)) := by
  unfold addressDigit? addressDigit
  by_cases hc : c = '.'
  · rw [if_pos hc, if_pos hc]
    rfl
  · rw [if_neg hc, if_neg hc, if_pos (h.resolve_left hc)]

theorem IsAddress.mapM_addressDigit? {cs : List Char} (h : IsAddress cs) :
    cs.mapM addressDigit? = some (cs.map fun c => UInt64.ofNat (addressDigit c)) :=
  mapM_eq_some_map fun c hc => addressDigit?_eq_some (h c hc)

/-- The words that are read are the digits. -/
theorem IsAddress.map_toNat {cs : List Char} (h : IsAddress cs) :
    (cs.map fun c => UInt64.ofNat (addressDigit c)).map UInt64.toNat = cs.map addressDigit := by
  rw [List.map_map]
  refine List.map_congr_left ?_
  intro c hc
  have hlt := addressDigit_lt (h c hc)
  exact UInt64.toNat_ofNat_of_lt' (by simp only [UInt64.size]; omega)

theorem IsAddress.lt_of_mem_map {cs : List Char} (h : IsAddress cs) :
    ∀ d ∈ cs.map fun c => UInt64.ofNat (addressDigit c), d.toNat < 11 := by
  intro d hd
  obtain ⟨c, hc, hcd⟩ := List.mem_map.1 (h.map_toNat ▸ List.mem_map_of_mem hd)
  rw [← hcd]
  exact addressDigit_lt (h c hc)

namespace Checksum

/-- The checksum on a ledger of a sequence of digits, as a formula over the natural numbers. -/
def digest (l : LedgerId) (ds : List ℕ) : Checksum :=
  ⟨⟨(pack ds + spelt l.digits) * 1000003 % checksumCount, Nat.mod_lt _ (by decide)⟩⟩

theorem value_digest (l : LedgerId) (ds : List ℕ) :
    (digest l ds).value.val = (pack ds + spelt l.digits) * 1000003 % 26 ^ 5 := rfl

theorem ofDigitsOn_eq_digest (l : LedgerId) {ds : List UInt64} (hds : ∀ d ∈ ds, d.toNat < 11) :
    ofDigitsOn l ds = digest l (ds.map UInt64.toNat) := by
  have hpack := (AddressTally.tallyOf_ofDigits hds).packed
  have hlt := pack_lt (ds.map UInt64.toNat)
  have hterm := l.toNat_term
  have hterm_lt := Nat.mod_lt (spelt l.digits) (y := 26 ^ 5) (by decide)
  have hmod : checksumModulus.toNat = 26 ^ 5 := rfl
  have hspread : checksumSpread.toNat = 1000003 := rfl
  have hcount : checksumCount = 26 ^ 5 := rfl
  unfold ofDigitsOn ofWord
  rw [Checksum.mk.injEq, Fin.ext_iff, value_digest, Fin.val_ofNat, hcount, UInt64.toNat_mod,
    UInt64.toNat_mul, UInt64.toNat_mod, UInt64.toNat_add, hmod, hspread, hpack, hterm]
  -- neither the sum nor the product of the remainders reaches `2 ^ 64`
  rw [Nat.mod_eq_of_lt (a := pack _ + _) (by omega), Nat.mod_eq_of_lt (b := 2 ^ 64) (by omega)]
  have hsum : (pack (ds.map UInt64.toNat) + spelt l.digits % 26 ^ 5) % 26 ^ 5 ≡
      pack (ds.map UInt64.toNat) + spelt l.digits [MOD 26 ^ 5] :=
    (Nat.mod_modEq _ _).trans ((Nat.mod_modEq _ _).add_left _)
  exact (Nat.mod_modEq _ _).trans (hsum.mul_right 1000003)

/-- **The checksum of an address is its number.**  On every ledger every address has a checksum, and
it is the one that the formula gives. -/
theorem compute_eq_digest (l : LedgerId) {text : String} (h : IsAddress text.toList) :
    compute l text = .ok (digest l (text.toList.map addressDigit)) := by
  rw [compute, h.mapM_addressDigit?]
  simp only [ofDigitsOn_eq_digest l h.lt_of_mem_map, h.map_toNat]

/-- The letters of an id on the main network. -/
example : (compute Network.mainnet.ledger "0.0.123").toOption.map letters =
    some "vfmkw".toList := by
  decide +kernel

/-- The permutation of the checksums by the spread loses nothing: what is compared is the packed
digits with the ledger's number added. -/
theorem digest_eq_digest_iff {l k : LedgerId} {ds es : List ℕ} :
    digest l ds = digest k es ↔
      pack ds + spelt l.digits ≡ pack es + spelt k.digits [MOD 26 ^ 5] := by
  have hcoprime : Nat.gcd (26 ^ 5) 1000003 = 1 := by decide +kernel
  constructor
  · intro h
    have hval : (digest l ds).value.val = (digest k es).value.val := by rw [h]
    rw [value_digest, value_digest] at hval
    exact Nat.ModEq.cancel_right_of_coprime hcoprime hval
  · intro h
    rw [Checksum.mk.injEq, Fin.ext_iff, value_digest, value_digest]
    exact h.mul_right 1000003

/-- **The collision law.**  Two digit sequences have one checksum on a ledger if and only if their
lengths agree modulo 5, their alternate sums modulo 11 and the numbers that they spell modulo
`26 ^ 3`. -/
theorem digest_eq_iff (l : LedgerId) {ds es : List ℕ} :
    digest l ds = digest l es ↔ ds.length % 5 = es.length % 5 ∧
      alternateSum 0 ds % 11 = alternateSum 0 es % 11 ∧
      alternateSum 1 ds % 11 = alternateSum 1 es % 11 ∧
      spelt ds % 26 ^ 3 = spelt es % 26 ^ 3 := by
  rw [← pack_eq_iff, digest_eq_digest_iff]
  constructor
  · intro h
    -- the term of the ledger is on both sides
    exact h.add_right_cancel'.eq_of_lt_of_lt (pack_lt ds) (pack_lt es)
  · intro h
    rw [h]

end Checksum

end LedgerKit
