/-!
# Decimal numbers

The canonical decimal spelling of a natural number, which is `Nat.toDigits 10`, and the reader that
accepts exactly that spelling: `ofChars?_eq_some_iff`.
-/

namespace LedgerKit.Decimal

/-- The number that these characters spell: ASCII digits, and no zero in front of others. -/
def ofChars? (cs : List Char) : Option Nat :=
  if cs.isEmpty || !cs.all Char.isDigit || (cs.head? == some '0' && cs.length != 1) then none
  else some (Nat.ofDigitChars 10 cs 0)

/-- The same for the numbers of 64 bits. -/
def ofChars64? (cs : List Char) : Option UInt64 :=
  match ofChars? cs with
  | some n => if n < UInt64.size then some (UInt64.ofNat n) else none
  | none => none

theorem exists_digitChar {c : Char} (h : c.isDigit = true) : ∃ d < 10, c = Nat.digitChar d := by
  simp only [Char.isDigit, Bool.and_eq_true, decide_eq_true_eq, UInt32.le_iff_toNat_le] at h
  have low : 48 ≤ c.toNat := h.1
  have high : c.toNat ≤ 57 := h.2
  refine ⟨c.toNat - 48, by omega, Char.toNat_inj.1 ?_⟩
  rw [Nat.toNat_digitChar_of_lt_ten (by omega)]
  omega

theorem ne_of_isDigit {c d : Char} (h : c.isDigit = true) (hd : d.isDigit = false) : c ≠ d :=
  ne_of_apply_ne Char.isDigit (by simp [h, hd])

/-- A text that begins with a digit is none that begins with another character. -/
theorem ne_cons_of_isDigit {c d : Char} (h : c.isDigit = true) (hd : d.isDigit = false)
    (cs ds : List Char) : c :: cs ≠ d :: ds :=
  fun heq => ne_of_isDigit h hd (List.cons.inj heq).1

theorem digitChar_ne_zero {d : Nat} (h : 0 < d) (h' : d < 10) : Nat.digitChar d ≠ '0' := by
  intro e
  have e := congrArg Char.toNat e
  rw [Nat.toNat_digitChar_of_lt_ten h'] at e
  simp at e
  omega

/-- Digits after a number above zero are appended to its spelling. -/
theorem toDigits_ofDigitChars_of_pos {cs : List Char} (h : ∀ c ∈ cs, c.isDigit = true) {v : Nat}
    (hv : 0 < v) : Nat.toDigits 10 (Nat.ofDigitChars 10 cs v) = Nat.toDigits 10 v ++ cs := by
  induction cs generalizing v with
  | nil => simp
  | cons c cs ih =>
    obtain ⟨d, hd, rfl⟩ := exists_digitChar (h c (by simp))
    have hcs : ∀ c ∈ cs, c.isDigit = true := fun c hc => h c (by simp [hc])
    rw [Nat.ofDigitChars_cons_digitChar_of_lt_ten hd, ih hcs (by omega),
      ← Nat.toDigits_append_toDigits (by decide) hv hd, Nat.toDigits_of_lt_base hd]
    simp

theorem head_toDigits_ne_zero {n : Nat} (h : 0 < n) : (Nat.toDigits 10 n).head? ≠ some '0' := by
  induction n using Nat.strongRecOn with
  | ind n ih =>
    rw [Nat.toDigits_eq_if (by decide)]
    split
    · next hn => simpa using digitChar_ne_zero h hn
    · next hn =>
      rw [List.head?_append, List.head?_eq_some_head Nat.toDigits_ne_nil, Option.some_or,
        ← List.head?_eq_some_head]
      exact ih (n / 10) (by omega) (by omega)

theorem isDigit_of_mem_toDigits {n : Nat} : ∀ c ∈ Nat.toDigits 10 n, c.isDigit = true :=
  fun _ hc => Nat.isDigit_of_mem_toDigits (by decide) (by decide) hc

/-- A number is spelt as one zero or with another digit in front. -/
theorem toDigits_cases (n : Nat) : Nat.toDigits 10 n = ['0'] ∨
    ∃ c cs, Nat.toDigits 10 n = c :: cs ∧ c.isDigit = true ∧ c ≠ '0' := by
  rcases Nat.eq_zero_or_pos n with rfl | hn
  · exact .inl rfl
  obtain ⟨c, cs, hcs⟩ := List.exists_cons_of_ne_nil (Nat.toDigits_ne_nil (b := 10) (n := n))
  refine .inr ⟨c, cs, hcs, isDigit_of_mem_toDigits c (hcs ▸ List.mem_cons_self), ?_⟩
  intro hc
  have hhead := head_toDigits_ne_zero hn
  rw [hcs, hc] at hhead
  exact hhead rfl

theorem exists_toDigits (n : Nat) :
    ∃ c cs, Nat.toDigits 10 n = c :: cs ∧ c.isDigit = true := by
  obtain ⟨c, cs, hcs⟩ := List.exists_cons_of_ne_nil (Nat.toDigits_ne_nil (b := 10) (n := n))
  exact ⟨c, cs, hcs, isDigit_of_mem_toDigits c (hcs ▸ List.mem_cons_self)⟩

/-- The spellings that are read are those that are written. -/
theorem ofChars?_eq_some_iff {cs : List Char} {n : Nat} :
    ofChars? cs = some n ↔ cs = Nat.toDigits 10 n := by
  constructor
  · intro h
    simp only [ofChars?] at h
    split at h
    · cases h
    · next hc =>
      cases h
      simp only [Bool.or_eq_true, not_or, Bool.not_eq_true, Bool.not_eq_false',
        List.all_eq_true] at hc
      obtain ⟨⟨hne, hd⟩, hz⟩ := hc
      cases cs with
      | nil => simp at hne
      | cons c cs =>
        obtain ⟨d, hd₁, rfl⟩ := exists_digitChar (hd c (by simp))
        rw [Nat.ofDigitChars_cons_digitChar_of_lt_ten hd₁, Nat.mul_zero, Nat.zero_add]
        rcases Nat.eq_zero_or_pos d with rfl | hpos
        · have : cs = [] := by simpa [Nat.digitChar] using hz
          simp [this]
        · rw [toDigits_ofDigitChars_of_pos (fun c hc => hd c (by simp [hc])) hpos,
            Nat.toDigits_of_lt_base hd₁]
          rfl
  · rintro rfl
    have hd : (Nat.toDigits 10 n).all Char.isDigit = true :=
      List.all_eq_true.2 isDigit_of_mem_toDigits
    have hne : (Nat.toDigits 10 n).isEmpty = false := by simp [Nat.toDigits_ne_nil]
    have hz :
        ((Nat.toDigits 10 n).head? == some '0' && (Nat.toDigits 10 n).length != 1) = false := by
      rcases Nat.eq_zero_or_pos n with rfl | hpos
      · rfl
      · simp [head_toDigits_ne_zero hpos]
    simp only [ofChars?, hd, hne, hz, Nat.ofDigitChars_ten_toDigits]
    simp

/-- A number of 64 bits is read from its spelling and from no other text. -/
theorem ofChars64?_eq_some_iff {cs : List Char} {n : UInt64} :
    ofChars64? cs = some n ↔ cs = Nat.toDigits 10 n.toNat := by
  rw [← ofChars?_eq_some_iff, ofChars64?]
  have hn : n.toNat < UInt64.size := n.toNat_lt
  split
  · next m hm =>
    rw [hm]
    split
    · next h =>
      simp only [Option.some.injEq, ← UInt64.toNat_inj, UInt64.toNat_ofNat']
      rw [Nat.mod_eq_of_lt h]
    · simp only [reduceCtorEq, Option.some.injEq, false_iff]
      omega
  · next hm => simp [hm]

end LedgerKit.Decimal
