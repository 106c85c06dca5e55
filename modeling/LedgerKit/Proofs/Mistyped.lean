import LedgerKit.Proofs.Validation
import Mathlib.Data.Nat.Prime.Basic
import Mathlib.Data.ZMod.Basic
import Mathlib.GroupTheory.OrderOfElement
import Mathlib.Tactic.IntervalCases
import Mathlib.Tactic.LinearCombination
import Mathlib.Tactic.NormNum.Prime

/-!
# Mistyped addresses

An address in which one character is replaced, or two are exchanged, or whose length has changed by
something other than a multiple of five, has another checksum on every ledger
(`Checksum.mistyped_detected`).  Exchanges are found in texts of up to 676 characters; the text of
an id has at most 62.

The lengths are told apart modulo 5.  The other two are told apart by the spelt number modulo
`13 ^ 3`: replacing changes it by a difference of digits, which is prime to 13, times a power of the
radix 31, and exchanging by such a difference times the difference of two powers, which agree only
if their exponents do modulo 676 (`orderOf_radix`).
-/

namespace LedgerKit

/-! ### Ways of mistyping -/

/-- The texts are of one length and differ at exactly one position. -/
def DifferAtOne (a b : List Char) : Prop := a.length = b.length ∧ ∃! i : ℕ, a[i]? ≠ b[i]?

/-- The second text is the first with two unequal characters exchanged. -/
def Exchanged (a b : List Char) : Prop :=
  ∃ (i j : ℕ) (hi : i < a.length) (hj : j < a.length),
    a[i] ≠ a[j] ∧ b = (a.set i a[j]).set j a[i]

/-- The second text is the first with one character replaced, with two exchanged, or with so many
more or less that the lengths do not agree modulo 5. -/
def Mistyped (a b : List Char) : Prop :=
  DifferAtOne a b ∨ Exchanged a b ∨ ¬ a.length ≡ b.length [MOD 5]

theorem DifferAtOne.exists_set {a b : List Char} (h : DifferAtOne a b) :
    ∃ (i : ℕ) (hi : i < a.length) (hj : i < b.length), b[i] ≠ a[i] ∧ b = a.set i b[i] := by
  obtain ⟨hlen, i, hne, honly⟩ := h
  have hi : i < a.length := by
    by_contra hge
    -- past the end of both there is no difference
    rw [List.getElem?_eq_none (by omega), List.getElem?_eq_none (by omega)] at hne
    exact hne rfl
  have hj : i < b.length := hlen ▸ hi
  refine ⟨i, hi, hj, ?_, ?_⟩
  · intro he
    rw [List.getElem?_eq_getElem hi, List.getElem?_eq_getElem hj, he] at hne
    exact hne rfl
  · apply List.ext_getElem?
    intro k
    by_cases hk : k = i
    · rw [hk, List.getElem?_set_self hi, List.getElem?_eq_getElem hj]
    · rw [List.getElem?_set_ne (Ne.symm hk)]
      by_contra hd
      exact hk (honly k (Ne.symm hd))

/-- Different characters of addresses stand for different digits. -/
theorem addressDigit_inj {c d : Char} (hc : c = '.' ∨ c.isDigit = true)
    (hd : d = '.' ∨ d.isDigit = true) (h : addressDigit c = addressDigit d) : c = d := by
  have hrange : ∀ x : Char, x.isDigit = true → 48 ≤ x.toNat ∧ x.toNat ≤ 57 := by
    intro x hx
    simp only [Char.isDigit, Bool.and_eq_true, decide_eq_true_eq, UInt32.le_iff_toNat_le] at hx
    exact hx
  unfold addressDigit at h
  apply Char.toNat_inj.1
  split at h <;> split at h
  · next hc' hd' => rw [hc', hd']
  · next hd' =>
    have := hrange d (hd.resolve_left hd')
    omega
  · next hc' _ =>
    have := hrange c (hc.resolve_left hc')
    omega
  · next hc' hd' =>
    have := hrange c (hc.resolve_left hc')
    have := hrange d (hd.resolve_left hd')
    omega

/-! ### The spelt number modulo `13 ^ 3` -/

/-- What replacing one digit changes. -/
theorem cast_spelt_set (ds : List ℕ) (i : ℕ) (hi : i < ds.length) (e : ℕ) :
    (spelt (ds.set i e) : ZMod 2197) =
      spelt ds + 31 ^ (ds.length - 1 - i) * ((e : ZMod 2197) - ds[i]) := by
  induction ds generalizing i with
  | nil => exact absurd hi (Nat.not_lt_zero i)
  | cons d ds ih =>
    cases i with
    | zero =>
      rw [List.set_cons_zero, spelt_cons, spelt_cons]
      push_cast
      simp only [List.length_cons, Nat.add_sub_cancel, Nat.sub_zero, List.getElem_cons_zero]
      ring
    | succ i =>
      have hi' : i < ds.length := by simpa using hi
      have hexp : (d :: ds).length - 1 - (i + 1) = ds.length - 1 - i := by
        rw [List.length_cons]
        omega
      rw [List.set_cons_succ, spelt_cons, spelt_cons, List.length_set, hexp,
        List.getElem_cons_succ]
      push_cast
      rw [ih i hi']
      ring

theorem isUnit_radix : IsUnit (31 : ZMod 2197) :=
  (ZMod.isUnit_iff_coprime 31 2197).2 (by decide)

/-- The modulus is a power of 13, and digits differ by less than that. -/
theorem isUnit_sub {x y : ℕ} (hx : x < 11) (hy : y < 11) (h : x ≠ y) :
    IsUnit ((x : ZMod 2197) - y) := by
  have hpos : ∀ k : ℕ, 0 < k → k < 11 → IsUnit (k : ZMod 2197) := by
    intro k h₀ h₁
    rw [ZMod.isUnit_iff_coprime]
    interval_cases k <;> decide
  obtain hlt | hlt := Nat.lt_or_gt_of_ne h
  · have hunit := (hpos (y - x) (by omega) (by omega)).neg
    rwa [Nat.cast_sub hlt.le, neg_sub] at hunit
  · have hunit := hpos (x - y) (by omega) (by omega)
    rwa [Nat.cast_sub hlt.le] at hunit

/-- The powers of the radix repeat after 676. -/
theorem orderOf_radix : orderOf (31 : ZMod 2197) = 676 := by
  have hpow : (31 : ZMod 2197) ^ 676 = 1 := by decide +kernel
  refine orderOf_eq_of_pow_and_pow_div_prime (by decide) hpow fun p hp hdvd => ?_
  have hp' : p = 2 ∨ p = 13 := by
    have hfactor : p ∣ 2 ^ 2 * 13 ^ 2 := hdvd
    rcases (Nat.Prime.dvd_mul hp).1 hfactor with h | h
    · exact .inl ((Nat.prime_dvd_prime_iff_eq hp Nat.prime_two).1 (hp.dvd_of_dvd_pow h))
    · exact .inr ((Nat.prime_dvd_prime_iff_eq hp (by norm_num)).1 (hp.dvd_of_dvd_pow h))
  obtain rfl | rfl := hp'
  · decide +kernel
  · decide +kernel

theorem radix_pow_inj {m n : ℕ} (hm : m < 676) (hn : n < 676)
    (h : (31 : ZMod 2197) ^ m = 31 ^ n) : m = n :=
  pow_injOn_Iio_orderOf (by rwa [Set.mem_Iio, orderOf_radix]) (by rwa [Set.mem_Iio, orderOf_radix])
    h

/-- A replaced digit changes the spelt number. -/
theorem spelt_set_ne {ds : List ℕ} {i e : ℕ} (hi : i < ds.length) (hd : ds[i] < 11) (he : e < 11)
    (h : e ≠ ds[i]) : (spelt (ds.set i e) : ZMod 2197) ≠ spelt ds := by
  intro hsame
  have : Nontrivial (ZMod 2197) := ⟨0, 1, by decide⟩
  have hdiff := cast_spelt_set ds i hi e
  rw [hsame, left_eq_add] at hdiff
  exact ((isUnit_radix.pow _).mul (isUnit_sub he hd h)).ne_zero hdiff

/-- Two exchanged digits change the spelt number, if their distance stays below the order of the
radix. -/
theorem spelt_exchange_ne {ds : List ℕ} {i j : ℕ} (hi : i < ds.length) (hj : j < ds.length)
    (hdi : ds[i] < 11) (hdj : ds[j] < 11) (h : ds[i] ≠ ds[j]) (hlen : ds.length ≤ 676) :
    (spelt ((ds.set i ds[j]).set j ds[i]) : ZMod 2197) ≠ spelt ds := by
  intro hsame
  have hij : i ≠ j := fun hij => h (by simp only [hij])
  have hj' : j < (ds.set i ds[j]).length := by rwa [List.length_set]
  have hfirst := cast_spelt_set ds i hi ds[j]
  have hsecond := cast_spelt_set (ds.set i ds[j]) j hj' ds[i]
  rw [List.getElem_set_ne hij, List.length_set, hsame, hfirst] at hsecond
  -- the two changes cancel only if the two places weigh the same
  have hcancel : ((31 : ZMod 2197) ^ (ds.length - 1 - i) - 31 ^ (ds.length - 1 - j)) *
      ((ds[i] : ZMod 2197) - ds[j]) = 0 := by
    linear_combination hsecond
  have hweights := ((isUnit_sub hdi hdj h).mul_left_eq_zero).1 hcancel
  have hexp := radix_pow_inj (by omega) (by omega) (sub_eq_zero.1 hweights)
  omega

/-- The checksum holds the spelt number modulo `26 ^ 3`, and so also modulo `13 ^ 3`. -/
theorem cast_spelt_eq {ds es : List ℕ} (h : spelt ds % 26 ^ 3 = spelt es % 26 ^ 3) :
    (spelt ds : ZMod 2197) = spelt es := by
  rw [ZMod.natCast_eq_natCast_iff]
  have hmod : spelt ds ≡ spelt es [MOD 26 ^ 3] := h
  exact hmod.of_dvd (by decide)

/-! ### Detection -/

namespace Checksum

theorem digest_ne_of_mistyped (l : LedgerId) {a b : List Char} (ha : IsAddress a)
    (hb : IsAddress b) (h : Mistyped a b) (hlen : Exchanged a b → a.length ≤ 676) :
    digest l (a.map addressDigit) ≠ digest l (b.map addressDigit) := by
  intro heq
  obtain ⟨hcount, -, -, hspelt⟩ := (digest_eq_iff l).1 heq
  have hcast := (cast_spelt_eq hspelt).symm
  have hdigit : ∀ (i : ℕ) (hi : i < a.length), addressDigit a[i] < 11 := fun i hi =>
    addressDigit_lt (ha _ (List.getElem_mem hi))
  rcases h with hone | hex | hmod
  · obtain ⟨i, hi, hj, hne, hset⟩ := hone.exists_set
    have hbi := hb _ (List.getElem_mem hj)
    rw [hset, List.map_set] at hcast
    refine spelt_set_ne (by rwa [List.length_map]) ?_ (addressDigit_lt hbi) ?_ hcast
    · rw [List.getElem_map]
      exact hdigit i hi
    · rw [List.getElem_map]
      exact fun he => hne (addressDigit_inj hbi (ha _ (List.getElem_mem hi)) he)
  · have hshort := hlen hex
    obtain ⟨i, j, hi, hj, hne, hset⟩ := hex
    have hi' : i < (a.map addressDigit).length := by rwa [List.length_map]
    have hj' : j < (a.map addressDigit).length := by rwa [List.length_map]
    have hgi : (a.map addressDigit)[i] = addressDigit a[i] := List.getElem_map addressDigit
    have hgj : (a.map addressDigit)[j] = addressDigit a[j] := List.getElem_map addressDigit
    rw [hset, List.map_set, List.map_set, ← hgi, ← hgj] at hcast
    refine spelt_exchange_ne hi' hj' ?_ ?_ ?_ (by rwa [List.length_map]) hcast
    · rw [hgi]
      exact hdigit i hi
    · rw [hgj]
      exact hdigit j hj
    · rw [hgi, hgj]
      exact fun he => hne
        (addressDigit_inj (ha _ (List.getElem_mem hi)) (ha _ (List.getElem_mem hj)) he)
  · rw [List.length_map, List.length_map] at hcount
    exact hmod hcount

theorem compute_ne_of_mistyped (l : LedgerId) {a b : String} (ha : IsAddress a.toList)
    (hb : IsAddress b.toList) (h : Mistyped a.toList b.toList)
    (hlen : Exchanged a.toList b.toList → a.length ≤ 676) :
    ∃ c d, compute l a = .ok c ∧ compute l b = .ok d ∧ c ≠ d :=
  ⟨_, _, compute_eq_digest l ha, compute_eq_digest l hb, digest_ne_of_mistyped l ha hb h hlen⟩

end Checksum

namespace EntityId

theorem length_toString_le (id : EntityId) : id.toString.length ≤ 62 := by
  rw [← String.length_toList, toList_toString]
  exact id.number.length_chars_le

/-- Letters that are not the checksum of the id do not pass. -/
theorem validateChecksum_of_ne {typed : EntityId} {l : LedgerId} {c d : Checksum}
    (hc : typed.checksum = some c) (hd : Checksum.compute l typed.toString = .ok d) (h : d ≠ c) :
    typed.validateChecksum (some l) = .error (.checksumMismatch d c) := by
  simp only [validateChecksum, hc, hd]
  exact if_neg h

/-- A text with letters is read as the id that stands before them. -/
theorem of_parse_append {b : String} {c : Checksum} {typed : EntityId}
    (h : parse (b ++ "-" ++ c.toString) = .ok typed) :
    typed.toString = b ∧ typed.checksum = some c := by
  have htext : (b ++ "-" ++ c.toString).toList = b.toList ++ '-' :: c.letters := by
    simp [Checksum.toString]
  unfold parse at h
  rw [htext] at h
  split at h
  · next id hid =>
    obtain rfl : id = typed := Except.ok.inj h
    obtain ⟨hb, hc⟩ := ofChars?_append_letters hid
    refine ⟨?_, hc⟩
    rw [← String.toList_inj, toList_toString, hb]
  · cases h

end EntityId

namespace Checksum

/-- **What the checksum detects.**  On every ledger a mistyped address has another checksum, if it
has at most 676 characters or no two of them were exchanged.  An id has at most 62, so a mistyped
id, or the text of one, that carries the letters of the intended id is refused in every case. -/
theorem mistyped_detected (l : LedgerId) :
    (∀ a b : String, IsAddress a.toList → IsAddress b.toList → Mistyped a.toList b.toList →
      (Exchanged a.toList b.toList → a.length ≤ 676) →
      ∃ c d, compute l a = .ok c ∧ compute l b = .ok d ∧ c ≠ d) ∧
    ∀ id : EntityId, id.toString.length ≤ 62 ∧
      ∃ c, id.computeChecksum (some l) = .ok c ∧
        (∀ typed : EntityId, typed.checksum = some c →
          Mistyped id.toString.toList typed.toString.toList →
          ∃ d, d ≠ c ∧ typed.validateChecksum (some l) = .error (.checksumMismatch d c)) ∧
        ∀ (b : String) (typed : EntityId), EntityId.parse (b ++ "-" ++ c.toString) = .ok typed →
          Mistyped id.toString.toList b.toList →
          ∃ d, d ≠ c ∧ typed.validateChecksum (some l) = .error (.checksumMismatch d c) := by
  refine ⟨fun a b ha hb => compute_ne_of_mistyped l ha hb, fun id => ?_⟩
  have hshort := id.length_toString_le
  have hid := compute_eq_digest l id.isAddress_toString
  have hrefused : ∀ typed : EntityId,
      typed.checksum = some (digest l (id.toString.toList.map addressDigit)) →
      Mistyped id.toString.toList typed.toString.toList →
      ∃ d, d ≠ digest l (id.toString.toList.map addressDigit) ∧
        typed.validateChecksum (some l) =
          .error (.checksumMismatch d (digest l (id.toString.toList.map addressDigit))) := by
    intro typed hc hmistyped
    obtain ⟨c, d, hc', hd, hne⟩ := compute_ne_of_mistyped l id.isAddress_toString
      typed.isAddress_toString hmistyped fun _ => by omega
    obtain rfl := Except.ok.inj (hid.symm.trans hc')
    exact ⟨d, hne.symm, EntityId.validateChecksum_of_ne hc hd hne.symm⟩
  refine ⟨hshort, _, hid, hrefused, fun b typed hparse hmistyped => ?_⟩
  obtain ⟨rfl, hc⟩ := EntityId.of_parse_append hparse
  exact hrefused typed hc hmistyped

end Checksum

end LedgerKit
