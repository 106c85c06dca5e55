import LedgerKit.Proofs.PublishedChecksum

/-!
# Which addresses share a checksum

A checksum keeps four numbers of an address: its length modulo 5, the sums of the digits at even and
at odd positions modulo 11, and the number that the digits spell to the base 31 modulo `26 ^ 3`.
They are packed into one number below `26 ^ 5`, and what is done to this afterwards on a ledger can
be undone (`Checksum.packedOn_digest`).  So all four are read off the letters
(`Checksum.residuesOn_digest`), and two addresses collide if and only if they agree in all four, on
one ledger as on every other (`Checksum.collision_law`).
-/

namespace LedgerKit

/-- What a checksum keeps of the digits of an address. -/
structure Residues where
  /-- How many digits there are, modulo 5. -/
  count : ℕ
  /-- The sum of the digits at even positions, counted from zero, modulo 11. -/
  even : ℕ
  /-- The sum of the digits at odd positions modulo 11. -/
  odd : ℕ
  /-- The number that the digits spell to the base 31, modulo `26 ^ 3`. -/
  weighted : ℕ
deriving DecidableEq, Repr

namespace Residues

/-- The residues of some digits. -/
def ofDigits (ds : List ℕ) : Residues :=
  ⟨ds.length % 5, sumAt 0 ds % 11, sumAt 1 ds % 11, weightedSum ds % 26 ^ 3⟩

/-- The four numbers that one was packed from. -/
def unpack (n : ℕ) : Residues :=
  ⟨n / 26 ^ 3 / 11 / 11, n / 26 ^ 3 / 11 % 11, n / 26 ^ 3 % 11, n % 26 ^ 3⟩

/-- Each of the four stays below the base that the next is packed to. -/
theorem unpack_pack (ds : List ℕ) : unpack (pack ds) = ofDigits ds := by
  have hspelt := Nat.mod_lt (spelt ds) (y := 26 ^ 3) (by decide)
  rw [ofDigits, sumAt_zero, sumAt_one, weightedSum_eq_spelt, unpack, pack, Residues.mk.injEq]
  refine ⟨?_, ?_, ?_, ?_⟩ <;> omega

end Residues

namespace Checksum

/-- The number modulo `26 ^ 5` that the spread takes to one. -/
def unspread : ℕ := 8610443

theorem spread_unspread : 1000003 * unspread ≡ 1 [MOD 26 ^ 5] := by decide +kernel

/-- The packed number that has this checksum on a ledger: the spread is undone and the term of the
ledger taken away. -/
def packedOn (l : LedgerId) (c : Checksum) : ℕ :=
  (c.value.val * unspread + (26 ^ 5 - l.term.toNat)) % 26 ^ 5

/-- What a checksum on a ledger tells of the digits of an address. -/
def residuesOn (l : LedgerId) (c : Checksum) : Residues := .unpack (c.packedOn l)

theorem packedOn_digest (l : LedgerId) (ds : List ℕ) : (digest l ds).packedOn l = pack ds := by
  have hle := l.term_le
  have hterm : spelt l.digits ≡ l.term.toNat [MOD 26 ^ 5] := by
    rw [l.toNat_term]
    exact (Nat.mod_modEq _ _).symm
  have hvalue : (digest l ds).value.val * unspread ≡ pack ds + l.term.toNat [MOD 26 ^ 5] := by
    rw [value_digest]
    calc (pack ds + spelt l.digits) * 1000003 % 26 ^ 5 * unspread
      _ ≡ (pack ds + spelt l.digits) * 1000003 * unspread [MOD 26 ^ 5] :=
        (Nat.mod_modEq _ _).mul_right unspread
      _ = (pack ds + spelt l.digits) * (1000003 * unspread) := Nat.mul_assoc _ _ _
      _ ≡ (pack ds + spelt l.digits) * 1 [MOD 26 ^ 5] := spread_unspread.mul_left _
      _ = pack ds + spelt l.digits := Nat.mul_one _
      _ ≡ pack ds + l.term.toNat [MOD 26 ^ 5] := hterm.add_left _
  have hpacked : (digest l ds).value.val * unspread + (26 ^ 5 - l.term.toNat) ≡ pack ds
      [MOD 26 ^ 5] :=
    calc (digest l ds).value.val * unspread + (26 ^ 5 - l.term.toNat)
      _ ≡ pack ds + l.term.toNat + (26 ^ 5 - l.term.toNat) [MOD 26 ^ 5] := hvalue.add_right _
      _ = pack ds + 26 ^ 5 := by rw [Nat.add_assoc, Nat.add_sub_cancel' hle]
      _ ≡ pack ds [MOD 26 ^ 5] := Nat.add_modEq_right
  -- a packed number is its own remainder
  rw [packedOn, hpacked, Nat.mod_eq_of_lt (pack_lt ds)]

theorem residuesOn_digest (l : LedgerId) (ds : List ℕ) :
    (digest l ds).residuesOn l = .ofDigits ds := by
  rw [residuesOn, packedOn_digest, Residues.unpack_pack]

variable {a b : String}

/-- **The collision law.**  On every ledger two addresses of any lengths have the same letters if
and only if their lengths agree modulo 5, their sums of digits at even and at odd positions modulo
11, and the numbers that they spell to the base 31 modulo `26 ^ 3`.  None of the four is lost:
undoing what was done to the packed number gives them back from the checksum. -/
theorem collision_law (l : LedgerId) (ha : IsAddress a.toList) (hb : IsAddress b.toList) :
    ∃ c d, compute l a = .ok c ∧ compute l b = .ok d ∧
      (c.letters = d.letters ↔
        a.toList.length ≡ b.toList.length [MOD 5] ∧
        sumAt 0 (a.toList.map addressDigit) ≡ sumAt 0 (b.toList.map addressDigit) [MOD 11] ∧
        sumAt 1 (a.toList.map addressDigit) ≡ sumAt 1 (b.toList.map addressDigit) [MOD 11] ∧
        weightedSum (a.toList.map addressDigit) ≡
          weightedSum (b.toList.map addressDigit) [MOD 26 ^ 3]) ∧
      c.residuesOn l = .ofDigits (a.toList.map addressDigit) ∧
      d.residuesOn l = .ofDigits (b.toList.map addressDigit) := by
  refine ⟨_, _, compute_eq_digest l ha, compute_eq_digest l hb, ?_, residuesOn_digest l _,
    residuesOn_digest l _⟩
  simp only [letters_inj, digest_eq_iff, sumAt_zero, sumAt_one, weightedSum_eq_spelt, Nat.ModEq,
    List.length_map]

/-- Two accounts of the main network with one checksum. -/
theorem collision_law_accounts : IsAddress "0.0.10690".toList ∧ IsAddress "0.0.39004".toList ∧
    ∃ c d, compute Network.mainnet.ledger "0.0.10690" = .ok c ∧
      compute Network.mainnet.ledger "0.0.39004" = .ok d ∧ c.letters = d.letters ∧
      c.residuesOn Network.mainnet.ledger = ⟨4, 7, 7, 8282⟩ := by
  have ha : IsAddress "0.0.10690".toList := by simp [IsAddress]
  have hb : IsAddress "0.0.39004".toList := by simp [IsAddress]
  obtain ⟨c, d, hc, hd, hsame, hleft, -⟩ := collision_law Network.mainnet.ledger ha hb
  refine ⟨ha, hb, c, d, hc, hd, hsame.2 (by decide +kernel), ?_⟩
  rw [hleft]
  decide +kernel

end Checksum

end LedgerKit
