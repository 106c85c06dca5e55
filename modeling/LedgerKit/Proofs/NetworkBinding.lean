import LedgerKit.Proofs.Validation

/-!
# Checksums belong to a network

On which ledgers the checksums agree is decided by one number, the `LedgerId.value` that the bytes
of a ledger spell to the base 31, modulo the number of checksums.  The address plays no part: what
is taken from it is added to the term of the ledger, and both the six zero bytes behind the ledger
and the spread multiply by something prime to 26.

* `Checksum.compute_eq_iff` : checksums agree on one address if and only if the values do.
* `Checksum.compute_congr` : then they agree on every text.
* `Checksum.network_binding` : what follows for ids that are read on another network.
-/

namespace LedgerKit

namespace LedgerId

/-- The number that the bytes spell to the base 31, the most significant first. -/
def value (l : LedgerId) : ℕ := spelt (l.bytes.map UInt8.toNat)

/-- The zero bytes behind a ledger shift its value. -/
theorem spelt_digits (l : LedgerId) : spelt l.digits = 31 ^ 6 * l.value := by
  rw [digits, spelt_append, List.length_replicate, value]
  rfl

theorem value_singleton (b : UInt8) : value ⟨[b]⟩ = b.toNat := by
  simp [value, spelt]

/-- Zero bytes in front of a ledger do not count. -/
theorem value_replicate_zero (n : ℕ) (bs : Bytes) :
    value ⟨List.replicate n 0 ++ bs⟩ = value ⟨bs⟩ := by
  have hzero : (0 : UInt8).toNat = 0 := rfl
  rw [value, value, List.map_append, List.map_replicate, hzero, spelt, List.reverse_append,
    List.reverse_replicate, Nat.ofDigits_append_replicate_zero]
  rfl

variable {l k : LedgerId}

theorem spelt_digits_modEq_iff :
    spelt l.digits ≡ spelt k.digits [MOD 26 ^ 5] ↔ l.value ≡ k.value [MOD 26 ^ 5] := by
  have hcoprime : Nat.gcd (26 ^ 5) (31 ^ 6) = 1 := by decide +kernel
  rw [spelt_digits, spelt_digits]
  exact ⟨fun h => h.cancel_left_of_coprime hcoprime, fun h => h.mul_left (31 ^ 6)⟩

theorem term_eq_of_modEq (h : l.value ≡ k.value [MOD 26 ^ 5]) : l.term = k.term := by
  rw [← UInt64.toNat_inj, toNat_term, toNat_term]
  exact spelt_digits_modEq_iff.2 h

/-- The values of single bytes are below the number of checksums. -/
theorem not_modEq_of_ne {x y : UInt8} (h : x ≠ y) :
    ¬ value ⟨[x]⟩ ≡ value ⟨[y]⟩ [MOD 26 ^ 5] := by
  intro hmod
  have hx := x.toNat_lt
  have hy := y.toNat_lt
  rw [value_singleton, value_singleton] at hmod
  exact h (UInt8.toNat_inj.1 (hmod.eq_of_lt_of_lt (by omega) (by omega)))

end LedgerId

namespace Checksum

variable {l k : LedgerId}

theorem digest_same_iff (ds : List ℕ) :
    digest l ds = digest k ds ↔ l.value ≡ k.value [MOD 26 ^ 5] := by
  rw [digest_eq_digest_iff, ← LedgerId.spelt_digits_modEq_iff]
  -- what is taken from the digits is on both sides
  exact ⟨fun h => h.add_left_cancel', fun h => h.add_left (pack ds)⟩

/-- Ledgers of one value agree on every text, be it an address or not. -/
theorem compute_congr (h : l.value ≡ k.value [MOD 26 ^ 5]) (text : String) :
    compute l text = compute k text := by
  simp only [compute, ofDigitsOn, LedgerId.term_eq_of_modEq h]

theorem compute_eq_iff {a : String} (ha : IsAddress a.toList) :
    compute l a = compute k a ↔ l.value ≡ k.value [MOD 26 ^ 5] := by
  rw [compute_eq_digest l ha, compute_eq_digest k ha, Except.ok.injEq, digest_same_iff]

end Checksum

namespace EntityId

variable {l k : LedgerId} (id : EntityId)

/-- The letters for one ledger are compared with those for the other. -/
theorem validateChecksum_labelledFor :
    (id.labelledFor l).validateChecksum (some k) =
      if l.value ≡ k.value [MOD 26 ^ 5] then .ok ()
      else .error (.checksumMismatch (id.checksumOn k) (id.checksumOn l)) := by
  have hiff : (id.checksumOn l).letters = (id.checksumOn k).letters ↔
      l.value ≡ k.value [MOD 26 ^ 5] := Checksum.letters_inj.trans (Checksum.digest_same_iff _)
  rw [labelledFor, validateChecksum_lettered]
  simp only [hiff]

end EntityId

namespace Checksum

/-- **A checksum belongs to a network.**  On every address two ledgers have the same checksum if and
only if their values agree modulo the number of checksums.  So ledgers that agree on one address
agree on all, zero bytes in front of a ledger never matter, and ledgers of one byte agree on no
address.  An id that is written with the checksum of one ledger is read as that id and passes on
another ledger if and only if their values agree; otherwise the error names both checksums. -/
theorem network_binding (l k : LedgerId) :
    (∀ a : String, IsAddress a.toList → ∃ c d, compute l a = .ok c ∧ compute k a = .ok d ∧
      (c = d ↔ l.value ≡ k.value [MOD 26 ^ 5])) ∧
    (∀ a b : String, IsAddress a.toList → IsAddress b.toList →
      compute l a = compute k a → compute l b = compute k b) ∧
    (∀ (n : ℕ) (a : String), compute ⟨List.replicate n 0 ++ l.bytes⟩ a = compute l a) ∧
    (∀ (x y : UInt8) (a : String), IsAddress a.toList → x ≠ y →
      compute ⟨[x]⟩ a ≠ compute ⟨[y]⟩ a) ∧
    ∀ id : EntityId, ∃ (text : String) (typed : EntityId),
      id.toStringWithChecksum (some l) = .ok text ∧ EntityId.parse text = .ok typed ∧
      typed.number = id.number ∧
      (typed.validateChecksum (some k) = .ok () ↔ l.value ≡ k.value [MOD 26 ^ 5]) ∧
      (¬ l.value ≡ k.value [MOD 26 ^ 5] → ∃ c d, compute l id.toString = .ok c ∧
        compute k id.toString = .ok d ∧
        typed.validateChecksum (some k) = .error (.checksumMismatch d c)) := by
  refine ⟨fun a ha => ?_, fun a b ha hb hagree => ?_, fun n a => ?_, fun x y a ha hne => ?_,
    fun id => ?_⟩
  · exact ⟨_, _, compute_eq_digest l ha, compute_eq_digest k ha, digest_same_iff _⟩
  · exact compute_congr ((compute_eq_iff ha).1 hagree) b
  · exact compute_congr (congrArg (· % 26 ^ 5) (LedgerId.value_replicate_zero n l.bytes)) a
  · exact fun hagree => LedgerId.not_modEq_of_ne hne ((compute_eq_iff ha).1 hagree)
  · refine ⟨_, id.labelledFor l, id.toStringWithChecksum_some l, EntityId.parse_eq_ok_iff.2 rfl,
      rfl, ?_, fun hne => ⟨_, _, id.compute_toString l, id.compute_toString k, ?_⟩⟩
    · rw [EntityId.validateChecksum_labelledFor]
      split <;> simp_all
    · rw [EntityId.validateChecksum_labelledFor, if_neg hne]

end Checksum

end LedgerKit
