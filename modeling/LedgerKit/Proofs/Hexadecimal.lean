import LedgerKit.Id.Ledger
import LedgerKit.Proofs.Lists
import Mathlib.Data.Nat.Notation

/-!
# The texts of hexadecimal bytes

A text is read as some bytes if and only if, in lower case and without the `0x` that it may begin
with, it is what is written for them.  Reading looks at the bytes of the text; a character outside
ASCII has a byte above 127, which is no digit, so only the characters themselves matter.

* `Hex.decode_eq_ok_iff` : which digits are read as some bytes.
* `Hex.decode_unmarked_eq_ok_iff` : the same with the mark in front.
* `Hex.IsDigitsOf.isDigit`, `Hex.IsDigitsOf.length` : what is read has digits only, two for each
  byte.
* `LedgerId.parse_toString` : a ledger id is read back from its text, a name or digits.
-/

namespace LedgerKit

/-! ### Characters of one byte -/

namespace Text

theorem utf8EncodeChar_of_lt {c : Char} (h : c.toNat < 0x80) :
    String.utf8EncodeChar c = [c.toUInt8] := by
  apply String.utf8EncodeChar_eq_singleton
  rw [Char.utf8Size_eq_one_iff, UInt32.le_iff_toNat_le]
  exact Nat.le_of_lt_succ h

/-- The last byte of a character outside ASCII has its top bit set. -/
theorem lt_of_utf8EncodeChar {c : Char} (h : ∀ b ∈ String.utf8EncodeChar c, b.toNat < 0x80) :
    c.toNat < 0x80 := by
  rcases Nat.lt_or_ge c.toNat 0x80 with hc | hc
  · exact hc
  have hlast : UInt8.ofNat (c.toNat % 64 + 128) ∈ String.utf8EncodeChar c := by
    unfold String.utf8EncodeChar
    have hval : ¬ c.val.toNat ≤ 127 := by
      change ¬ c.toNat ≤ 127
      omega
    simp only [hval, if_false]
    split
    · simp
    split <;> simp
  have hlow := h _ hlast
  rw [UInt8.toNat_ofNat'] at hlow
  omega

theorem utf8Chars_of_ascii {cs : List Char} (h : ∀ c ∈ cs, c.toNat < 0x80) :
    utf8Chars cs = cs.map Char.toUInt8 := by
  induction cs with
  | nil => rfl
  | cons c cs ih =>
    rw [utf8Chars, List.flatMap_cons, utf8EncodeChar_of_lt (h c List.mem_cons_self), ← utf8Chars,
      ih fun d hd => h d (List.mem_cons_of_mem c hd)]
    rfl

theorem ascii_of_utf8Chars {cs : List Char} (h : ∀ b ∈ utf8Chars cs, b.toNat < 0x80) :
    ∀ c ∈ cs, c.toNat < 0x80 := by
  intro c hc
  apply lt_of_utf8EncodeChar
  intro b hb
  exact h b (List.mem_flatMap.2 ⟨c, hc, hb⟩)

theorem toNat_ofUInt8 (b : UInt8) : (Char.ofUInt8 b).toNat = b.toNat := rfl

theorem ofUInt8_toUInt8 {c : Char} (h : c.toNat < 0x80) : Char.ofUInt8 c.toUInt8 = c := by
  have hbyte : c.toUInt8.toNat = c.toNat % 256 := rfl
  apply Char.toNat_inj.1
  rw [toNat_ofUInt8, hbyte]
  omega

end Text

/-! ### Digits -/

namespace Hex

/-- The characters are the digits of these bytes, each in either case. -/
def IsDigitsOf (bs : Bytes) (cs : List Char) : Prop := cs.map Char.toLower = encodeChars bs

/-- The characters are the digits of these bytes, with or without the mark in front. -/
def IsTextOf (bs : Bytes) (cs : List Char) : Prop :=
  IsDigitsOf bs cs ∨ ∃ digits, IsDigitsOf bs digits ∧ cs = '0' :: 'x' :: digits

/-- A byte as the character of the same number, in lower case. -/
def lowerOf (b : UInt8) : Char := (Char.ofUInt8 b).toLower

@[simp] theorem encodeChars_nil : encodeChars [] = [] := rfl

@[simp] theorem encodeChars_cons (b : UInt8) (bs : Bytes) :
    encodeChars (b :: bs) = digit (b.toNat / 16) :: digit (b.toNat % 16) :: encodeChars bs := rfl

@[simp] theorem length_encodeChars (bs : Bytes) : (encodeChars bs).length = 2 * bs.length := by
  induction bs with
  | nil => rfl
  | cons b bs ih =>
    simp only [encodeChars_cons, List.length_cons, ih]
    omega

theorem exists_of_mem_encodeChars {bs : Bytes} {c : Char} (h : c ∈ encodeChars bs) :
    ∃ n < 16, c = digit n := by
  obtain ⟨b, -, hb⟩ := List.mem_flatMap.1 h
  have hlt := b.toNat_lt
  simp only [encodeByte, List.mem_cons, List.not_mem_nil, or_false] at hb
  rcases hb with rfl | rfl
  · exact ⟨_, by omega, rfl⟩
  · exact ⟨_, by omega, rfl⟩

theorem digit_inj {m n : ℕ} (hm : m < 16) (hn : n < 16) : digit m = digit n ↔ m = n := by
  have htable : ∀ m < 16, ∀ n < 16, digit m = digit n → m = n := by decide
  exact ⟨htable m hm n hn, congrArg digit⟩

theorem lt_of_digitValue? {b : UInt8} {v : ℕ} (h : digitValue? b = some v) : v < 16 := by
  unfold digitValue? at h
  grind

theorem digitValue?_eq_some_iff {b : UInt8} {v : ℕ} :
    digitValue? b = some v ↔ v < 16 ∧ lowerOf b = digit v := by
  -- the two tables of digits are compared entry by entry
  have htable : ∀ n < 256, ∀ w < 16,
      digitValue? (UInt8.ofNat n) = some w ↔ lowerOf (UInt8.ofNat n) = digit w := by
    decide +kernel
  have hb := htable b.toNat b.toNat_lt
  rw [UInt8.ofNat_toNat] at hb
  constructor
  · intro h
    have hv := lt_of_digitValue? h
    exact ⟨hv, (hb v hv).1 h⟩
  · rintro ⟨hv, h⟩
    exact (hb v hv).2 h

theorem lowerOf_ne_digit {b : UInt8} (h : digitValue? b = none) {n : ℕ} (hn : n < 16) :
    lowerOf b ≠ digit n := by
  intro hb
  rw [digitValue?_eq_some_iff.2 ⟨hn, hb⟩] at h
  cases h

/-- Two digits are those of a byte if and only if the byte is read from them. -/
theorem ofNat_eq_iff_digits {x y : ℕ} (hx : x < 16) (hy : y < 16) (b : UInt8) :
    UInt8.ofNat (16 * x + y) = b ↔
      digit x = digit (b.toNat / 16) ∧ digit y = digit (b.toNat % 16) := by
  have hb := b.toNat_lt
  rw [digit_inj hx (by omega), digit_inj hy (by omega), ← UInt8.toNat_inj, UInt8.toNat_ofNat']
  omega

theorem decodeFrom_eq_ok_iff {i : ℕ} {xs bs : Bytes} :
    decodeFrom i xs = .ok bs ↔ xs.map lowerOf = encodeChars bs := by
  fun_induction decodeFrom i xs generalizing bs with
  | case1 => cases bs <;> simp
  | case2 => cases bs <;> simp
  | case3 i a b rest ha =>
    cases bs with
    | nil => simp
    | cons c bs =>
      have hc : c.toNat / 16 < 16 := by
        have := c.toNat_lt
        omega
      simp [lowerOf_ne_digit ha hc]
  | case4 i a b rest x hb ha =>
    cases bs with
    | nil => simp
    | cons c bs => simp [lowerOf_ne_digit hb (Nat.mod_lt c.toNat (by decide : 0 < 16))]
  | case5 i a b rest x y hb ha ih =>
    obtain ⟨hx, hxa⟩ := digitValue?_eq_some_iff.1 ha
    obtain ⟨hy, hyb⟩ := digitValue?_eq_some_iff.1 hb
    rw [map_cons_eq_ok_iff]
    cases bs with
    | nil => simp
    | cons c bs =>
      simp only [List.cons.injEq, ih, ofNat_eq_iff_digits hx hy, List.map_cons, hxa, hyb,
        encodeChars_cons, and_assoc, and_left_comm, exists_and_left, exists_eq_right]

theorem decodeBytes_eq_ok_iff {xs bs : Bytes} :
    decodeBytes xs = .ok bs ↔ xs.map lowerOf = encodeChars bs := by
  unfold decodeBytes
  split
  · next hodd =>
    simp only [reduceCtorEq, false_iff]
    intro h
    have hlen := congrArg List.length h
    simp only [List.length_map, length_encodeChars] at hlen
    omega
  · exact decodeFrom_eq_ok_iff

/-! ### Texts -/

theorem lt_of_toLower_eq_digit {c : Char} {n : ℕ} (hn : n < 16) (h : c.toLower = digit n) :
    c.toNat < 0x80 := by
  have htable : ∀ n < 16, (digit n).toNat < 0x80 := by decide
  unfold Char.toLower at h
  split at h
  · next hc =>
    have hz : c.toNat ≤ 90 := hc.2
    omega
  · rw [h]
    exact htable n hn

/-- **The digits that are read as some bytes** are those that are written for them, in either
case. -/
theorem decode_eq_ok_iff {cs : List Char} {bs : Bytes} :
    decode cs = .ok bs ↔ IsDigitsOf bs cs := by
  rw [decode, decodeBytes_eq_ok_iff, IsDigitsOf]
  -- either way all characters are ASCII, and then each of them is its one byte
  have hsame (h : ∀ c ∈ cs, c.toNat < 0x80) :
      (Text.utf8Chars cs).map lowerOf = cs.map Char.toLower := by
    rw [Text.utf8Chars_of_ascii h, List.map_map]
    apply List.map_congr_left
    intro c hc
    simp [lowerOf, Text.ofUInt8_toUInt8 (h c hc)]
  constructor
  · intro h
    rw [← hsame, h]
    apply Text.ascii_of_utf8Chars
    intro b hb
    obtain ⟨n, hn, hlow⟩ := exists_of_mem_encodeChars (h ▸ List.mem_map_of_mem hb)
    rw [← Text.toNat_ofUInt8]
    exact lt_of_toLower_eq_digit hn hlow
  · intro h
    rw [hsame, h]
    intro c hc
    obtain ⟨n, hn, hlow⟩ := exists_of_mem_encodeChars (h ▸ List.mem_map_of_mem hc)
    exact lt_of_toLower_eq_digit hn hlow

theorem isDigitsOf_encodeChars (bs : Bytes) : IsDigitsOf bs (encodeChars bs) := by
  have htable : ∀ n < 16, (digit n).toLower = digit n := by decide
  unfold IsDigitsOf
  rw [List.map_congr_left (g := id), List.map_id]
  intro c hc
  obtain ⟨n, hn, rfl⟩ := exists_of_mem_encodeChars hc
  exact htable n hn

/-- No digit is taken for the mark. -/
theorem IsDigitsOf.unmarked {bs : Bytes} {cs : List Char} (h : IsDigitsOf bs cs) :
    unmarked cs = cs := by
  unfold Hex.unmarked
  split
  · next rest =>
    exfalso
    have hx : 'x' ∈ encodeChars bs := h ▸ List.mem_map_of_mem (by simp : 'x' ∈ '0' :: 'x' :: rest)
    obtain ⟨n, hn, hdigit⟩ := exists_of_mem_encodeChars hx
    revert n
    decide
  · rfl

theorem decode_unmarked_eq_ok_iff {cs : List Char} {bs : Bytes} :
    decode (unmarked cs) = .ok bs ↔ IsTextOf bs cs := by
  rw [decode_eq_ok_iff]
  constructor
  · intro h
    unfold unmarked at h
    split at h
    · next rest => exact .inr ⟨rest, h, rfl⟩
    · exact .inl h
  · rintro (h | ⟨digits, h, rfl⟩)
    · rwa [h.unmarked]
    · exact h

theorem isTextOf_encode (bs : Bytes) : IsTextOf bs (encode bs).toList := by
  rw [encode, String.toList_ofList]
  exact .inl (isDigitsOf_encodeChars bs)

/-! ### Which digits, and how many -/

/-- A hexadecimal digit, the letters in lower case. -/
def IsLowerDigit (c : Char) : Prop := c ∈ "0123456789abcdef".toList

/-- A hexadecimal digit, the letters in either case. -/
def IsDigit (c : Char) : Prop := c ∈ "0123456789abcdefABCDEF".toList

theorem isLowerDigit_digit {n : ℕ} (hn : n < 16) : IsLowerDigit (digit n) := by
  have htable : ∀ n < 16, digit n ∈ "0123456789abcdef".toList := by decide
  exact htable n hn

theorem isDigit_of_toLower_eq_digit {c : Char} {n : ℕ} (hn : n < 16) (h : c.toLower = digit n) :
    IsDigit c := by
  have htable : ∀ k < 0x80, (Char.ofNat k).toLower ∈ "0123456789abcdef".toList →
      Char.ofNat k ∈ "0123456789abcdefABCDEF".toList := by
    decide +kernel
  have hc := htable c.toNat (lt_of_toLower_eq_digit hn h)
  rw [Char.ofNat_toNat] at hc
  exact hc (h ▸ isLowerDigit_digit hn)

theorem IsDigitsOf.isDigit {bs : Bytes} {cs : List Char} (h : IsDigitsOf bs cs) :
    ∀ c ∈ cs, IsDigit c := by
  intro c hc
  obtain ⟨n, hn, hlow⟩ := exists_of_mem_encodeChars (h ▸ List.mem_map_of_mem hc)
  exact isDigit_of_toLower_eq_digit hn hlow

theorem IsDigitsOf.length {bs : Bytes} {cs : List Char} (h : IsDigitsOf bs cs) :
    cs.length = 2 * bs.length := by
  rw [← length_encodeChars, ← h, List.length_map]

theorem isLowerDigit_encode (bs : Bytes) : ∀ c ∈ (encode bs).toList, IsLowerDigit c := by
  intro c hc
  rw [encode, String.toList_ofList] at hc
  obtain ⟨n, hn, rfl⟩ := exists_of_mem_encodeChars hc
  exact isLowerDigit_digit hn

theorem unmarked_encode (bs : Bytes) : unmarked (encode bs).toList = (encode bs).toList := by
  rw [encode, String.toList_ofList, (isDigitsOf_encodeChars bs).unmarked]

theorem length_encode (bs : Bytes) : (encode bs).length = 2 * bs.length := by
  rw [encode, String.length_ofList, length_encodeChars]

/-- As many bytes are read as there are pairs of digits. -/
theorem length_of_decodeBytes {xs bs : Bytes} (h : decodeBytes xs = .ok bs) :
    xs.length = 2 * bs.length := by
  rw [← length_encodeChars, ← decodeBytes_eq_ok_iff.1 h, List.length_map]

end Hex

/-! ### Ledger ids -/

namespace LedgerId

/-- No name of a network consists of digits. -/
theorem ofName?_encode (bs : Bytes) : Network.ofName? (Hex.encode bs) = none := by
  cases h : Network.ofName? (Hex.encode bs) with
  | none => rfl
  | some n =>
    exfalso
    have hname : Hex.encodeChars bs = n.name.toList := by
      rw [← Network.ofName?_eq_some_iff.1 h, Hex.encode, String.toList_ofList]
    -- every name ends in a letter that is no digit
    have ht : 't' ∈ n.name.toList := by cases n <;> decide
    obtain ⟨d, hd, hdigit⟩ := Hex.exists_of_mem_encodeChars (hname ▸ ht)
    revert d
    decide

/-- **A ledger id is read back from its text.** -/
theorem parse_toString (l : LedgerId) : parse l.toString = .ok l := by
  unfold toString name?
  cases h : l.network? with
  | some n =>
    have hl : n.ledger = l := by simpa using List.find?_some h
    simp [parse, Network.ofName?_eq_some_iff.2 rfl, hl]
  | none =>
    have hread := Hex.decode_unmarked_eq_ok_iff.2 (Hex.isTextOf_encode l.bytes)
    simp [parse, ofName?_encode, hread]

end LedgerId

end LedgerKit
