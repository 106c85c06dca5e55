import LedgerKit.Bytes.Basic
import Mathlib.Algebra.Group.Nat.Defs

/-!
# Numbers and their bytes

A number that fits into a width is read back from the bytes it is written as, in either byte order
(`littleEndian_ofNatLE`, `bigEndian_ofNatBE`), and bytes spell a number that fits into their length
(`littleEndian_lt`, `bigEndian_lt`).  So up to eight bytes and a number of 64 bits are made of each
other (`ofNatBE_ofNat_bigEndian`, `ofNat_bigEndian_ofNatBE`).
-/

namespace LedgerKit.Bytes

theorem littleEndian_lt (bs : Bytes) : littleEndian bs < 256 ^ bs.length := by
  induction bs with
  | nil => simp [littleEndian]
  | cons b bs ih =>
    have hb := b.toNat_lt
    simp only [littleEndian, List.length_cons, Nat.pow_succ]
    omega

theorem littleEndian_ofNatLE {width n : ℕ} (h : n < 256 ^ width) :
    littleEndian (ofNatLE width n) = n := by
  induction width generalizing n with
  | zero => simp_all [ofNatLE, littleEndian]
  | succ width ih =>
    have hn : n / 256 < 256 ^ width := by
      rw [Nat.pow_succ] at h
      omega
    simp only [ofNatLE, littleEndian, ih hn, UInt8.toNat_ofNat']
    omega

theorem bigEndian_ofNatBE {width n : ℕ} (h : n < 256 ^ width) :
    bigEndian (ofNatBE width n) = n := by
  simp [bigEndian, ofNatBE, littleEndian_ofNatLE h]

theorem bigEndian_lt (bs : Bytes) : bigEndian bs < 256 ^ bs.length := by
  simpa [bigEndian] using littleEndian_lt bs.reverse

/-- A number of up to 64 bits that was read from all bytes of a string is written as these bytes. -/
theorem ofNatBE_ofNat_bigEndian {width : ℕ} (hw : width ≤ 8) {bs : Bytes} (h : bs.length = width) :
    ofNatBE width (UInt64.ofNat (bigEndian bs)).toNat = bs := by
  subst h
  have hlt : bigEndian bs < UInt64.size :=
    Nat.lt_of_lt_of_le (bigEndian_lt bs) (Nat.pow_le_pow_right (by decide) hw)
  rw [UInt64.toNat_ofNat_of_lt' hlt, ofNatBE_bigEndian]

/-- A number of up to 64 bits is read back from as many bytes as hold it. -/
theorem ofNat_bigEndian_ofNatBE {width : ℕ} {w : UInt64} (h : w.toNat < 256 ^ width) :
    UInt64.ofNat (bigEndian (ofNatBE width w.toNat)) = w := by
  rw [bigEndian_ofNatBE h, UInt64.ofNat_toNat]

end LedgerKit.Bytes
