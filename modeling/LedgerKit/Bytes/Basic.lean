/-!
# Byte strings

`Bytes` is a byte string of any length and `Block n` one of exactly `n` bytes, which is what keys,
signatures and digests are.  Numbers are written into bytes and read back in either byte order, and
what is read from bytes is written as the same bytes (`ofNatLE_littleEndian`, `ofNatBE_bigEndian`).
The bytes of a text are its UTF-8 form.
-/

namespace LedgerKit

/-- A byte string. -/
abbrev Bytes := List UInt8

namespace Bytes

/-! ### Numbers in bytes -/

/-- The number whose base-256 digits, least significant first, are the bytes. -/
def littleEndian : Bytes → Nat
  | [] => 0
  | b :: bs => b.toNat + 256 * littleEndian bs

/-- The `width` lowest base-256 digits of a number, least significant first. -/
def ofNatLE : (width : Nat) → Nat → Bytes
  | 0, _ => []
  | width + 1, n => UInt8.ofNat n :: ofNatLE width (n / 256)

/-- The number whose base-256 digits, most significant first, are the bytes. -/
def bigEndian (bs : Bytes) : Nat := littleEndian bs.reverse

/-- The `width` lowest base-256 digits of a number, most significant first. -/
def ofNatBE (width n : Nat) : Bytes := (ofNatLE width n).reverse

/-- The exclusive or of two strings, as long as the shorter one. -/
def xor (a b : Bytes) : Bytes := List.zipWith (· ^^^ ·) a b

@[simp] theorem length_ofNatLE (width n : Nat) : (ofNatLE width n).length = width := by
  induction width generalizing n with
  | zero => rfl
  | succ width ih => simp [ofNatLE, ih]

@[simp] theorem length_ofNatBE (width n : Nat) : (ofNatBE width n).length = width := by
  simp [ofNatBE]

@[simp] theorem length_xor (a b : Bytes) : (xor a b).length = min a.length b.length := by
  simp [xor]

theorem ofNatLE_littleEndian (bs : Bytes) : ofNatLE bs.length (littleEndian bs) = bs := by
  induction bs with
  | nil => rfl
  | cons b bs ih =>
    have hb := b.toNat_lt
    have hq : (b.toNat + 256 * littleEndian bs) / 256 = littleEndian bs := by omega
    have hr : UInt8.ofNat (b.toNat + 256 * littleEndian bs) = b := by
      apply UInt8.toNat.inj
      simp only [UInt8.toNat_ofNat']
      omega
    simp only [littleEndian, List.length_cons, ofNatLE, hq, hr, ih]

theorem ofNatBE_bigEndian (bs : Bytes) : ofNatBE bs.length (bigEndian bs) = bs := by
  have h := ofNatLE_littleEndian bs.reverse
  rw [List.length_reverse] at h
  rw [ofNatBE, bigEndian, h, List.reverse_reverse]

end Bytes

/-! ### Blocks -/

/-- A byte string of exactly `n` bytes. -/
structure Block (n : Nat) where
  /-- The bytes themselves. -/
  toBytes : Bytes
  /-- There are `n` of them. -/
  length_toBytes : toBytes.length = n
deriving DecidableEq

namespace Block

attribute [simp] length_toBytes

variable {m n : Nat}

theorem ext {a b : Block n} (h : a.toBytes = b.toBytes) : a = b := by
  cases a; cases b; simp_all

/-- Blocks are ordered by their first differing byte. -/
instance : Ord (Block n) := ⟨compareOn Block.toBytes⟩

/-- The block of these bytes, if there are `n` of them. -/
def ofBytes? (n : Nat) (bs : Bytes) : Option (Block n) :=
  if h : bs.length = n then some ⟨bs, h⟩ else none

theorem ofBytes?_eq_some_iff {bs : Bytes} {b : Block n} :
    ofBytes? n bs = some b ↔ b.toBytes = bs := by
  obtain ⟨cs, hcs⟩ := b
  simp only [ofBytes?]
  split <;> simp_all <;> grind

@[simp] theorem ofBytes?_toBytes (b : Block n) : ofBytes? n b.toBytes = some b :=
  ofBytes?_eq_some_iff.2 rfl

/-- The first `n` of some bytes that number at least `n`. -/
def ofPrefix (n : Nat) (bs : Bytes) (h : n ≤ bs.length) : Block n :=
  ⟨bs.take n, by simp [h]⟩

/-- One block after the other. -/
def append (a : Block m) (b : Block n) : Block (m + n) :=
  ⟨a.toBytes ++ b.toBytes, by simp⟩

/-- The first `m` bytes. -/
def left (b : Block (m + n)) : Block m := ⟨b.toBytes.take m, by simp⟩

/-- The last `n` bytes. -/
def right (b : Block (m + n)) : Block n := ⟨b.toBytes.drop m, by simp⟩

/-- The exclusive or of two blocks. -/
def xor (a b : Block n) : Block n := ⟨Bytes.xor a.toBytes b.toBytes, by simp⟩

/-- The block whose every byte is `b`. -/
def replicate (n : Nat) (b : UInt8) : Block n := ⟨List.replicate n b, by simp⟩

/-- The `n` lowest base-256 digits of a number, least significant first. -/
def ofNatLE (n k : Nat) : Block n := ⟨Bytes.ofNatLE n k, by simp⟩

/-- The `n` lowest base-256 digits of a number, most significant first. -/
def ofNatBE (n k : Nat) : Block n := ⟨Bytes.ofNatBE n k, by simp⟩

end Block

/-! ### Texts as bytes -/

namespace Text

/-- The UTF-8 bytes of a list of characters. -/
def utf8Chars (cs : List Char) : Bytes := cs.flatMap String.utf8EncodeChar

/-- The UTF-8 bytes of a text. -/
def utf8 (s : String) : Bytes := utf8Chars s.toList

/-- The text whose UTF-8 bytes these are, if they are well formed. -/
def ofUtf8? (bs : Bytes) : Option String := String.fromUTF8? bs.toByteArray

@[simp] theorem utf8Chars_append (a b : List Char) :
    utf8Chars (a ++ b) = utf8Chars a ++ utf8Chars b := by
  simp [utf8Chars]

end Text

end LedgerKit
