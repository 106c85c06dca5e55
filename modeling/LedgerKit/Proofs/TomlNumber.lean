import LedgerKit.Text.Decimal
import LedgerKit.Toml.Document
import Mathlib.Data.Nat.Notation

/-!
# Integers, written and read

A line that ends with the digits of a number is read as that integer (`readScalar_toDigits`).  Every
date and time begins with digits too, but a hyphen or a colon follows them.
-/

namespace LedgerKit.Toml

section

variable {ds : List Char} (hds : ∀ c ∈ ds, c.isDigit = true) (rest : List Char)

include hds

/-! ### No date and no time -/

/-- After some of the digits comes another one or the end of the line. -/
theorem exists_of_readFixed {k m : ℕ} {r : List Char}
    (h : readFixed k (ds ++ '\n' :: rest) = some (m, r)) :
    ∃ d t, r = d :: t ∧ (d = '\n' ∨ d.isDigit = true) := by
  simp only [readFixed] at h
  split at h
  · next hdigits =>
    cases h
    -- otherwise the line end would be one of the digits
    have hk : k ≤ ds.length := by
      refine Nat.le_of_not_lt fun hk => ?_
      have hmem : '\n' ∈ (ds ++ '\n' :: rest).take k := by
        obtain ⟨j, hj⟩ := Nat.exists_eq_add_of_lt hk
        rw [List.take_append, hj]
        simp [Nat.add_assoc]
      exact absurd (List.all_eq_true.1 hdigits.2 _ hmem) (by decide)
    rw [List.drop_append_of_le_length hk]
    cases hdrop : ds.drop k with
    | nil => exact ⟨'\n', rest, rfl, .inl rfl⟩
    | cons d t =>
      have hmem : d ∈ ds.drop k := hdrop ▸ List.mem_cons_self
      exact ⟨d, _, rfl, .inr (hds d (List.mem_of_mem_drop hmem))⟩
  · cases h

/-- So no mark stands there. -/
theorem after?_of_readFixed {c : Char} (hline : c ≠ '\n') (hdigit : c.isDigit = false) {k m : ℕ}
    {r : List Char} (h : readFixed k (ds ++ '\n' :: rest) = some (m, r)) : after? c r = none := by
  obtain ⟨d, t, rfl, rfl | hd⟩ := exists_of_readFixed hds rest h
  · rw [after?, if_neg hline.symm]
  · rw [after?, if_neg (Decimal.ne_of_isDigit hd hdigit)]

theorem afterDate?_digits : afterDate? (ds ++ '\n' :: rest) = none := by
  rw [afterDate?]
  cases hread : readFixed 4 (ds ++ '\n' :: rest) with
  | none => rfl
  | some r =>
    have hmark : after? '-' r.2 = none := after?_of_readFixed hds rest (by decide) rfl hread
    simp [hmark]

theorem afterTime?_digits : afterTime? (ds ++ '\n' :: rest) = none := by
  rw [afterTime?, readBetween]
  cases hread : readFixed 2 (ds ++ '\n' :: rest) with
  | none => rfl
  | some r =>
    have hmark : after? ':' r.2 = none := after?_of_readFixed hds rest (by decide) rfl hread
    simp only [Option.bind_eq_bind, Option.bind_some]
    split <;> simp [hmark]

theorem readDateTime_digits : readDateTime (ds ++ '\n' :: rest) = none := by
  simp [readDateTime, afterDate?_digits hds rest, afterTime?_digits hds rest]

/-! ### The digits -/

theorem digitRun_digits :
    digitRun Char.isDigit (ds ++ '\n' :: rest) = (ds, '\n' :: rest) := by
  induction ds with
  | nil => simp [digitRun]
  | cons c ds ih =>
    rw [List.cons_append, digitRun, if_pos (hds c List.mem_cons_self),
      ih fun d hd => hds d (List.mem_cons_of_mem c hd)]

theorem ofDigits_eq_ofDigitChars (init : ℕ) :
    ds.foldl (fun n d => 10 * n + (hexValue? d).getD 0) init = Nat.ofDigitChars 10 ds init := by
  induction ds generalizing init with
  | nil => rfl
  | cons c ds ih =>
    have hc := hds c List.mem_cons_self
    simp only [Char.isDigit, Bool.and_eq_true, decide_eq_true_eq, UInt32.le_iff_toNat_le] at hc
    have hlow : 48 ≤ c.toNat := hc.1
    have hhigh : c.toNat ≤ 57 := hc.2
    have hvalue : (hexValue? c).getD 0 = c.toNat - '0'.toNat := by
      simp [hexValue?, hlow, hhigh]
    rw [List.foldl_cons, Nat.ofDigitChars_cons, hvalue,
      ih fun d hd => hds d (List.mem_cons_of_mem c hd)]

end

theorem readWhole_toDigits (n : ℕ) (rest : List Char) :
    readWhole (Nat.toDigits 10 n ++ '\n' :: rest) = some (Nat.toDigits 10 n, '\n' :: rest) := by
  rcases Decimal.toDigits_cases n with hzero | ⟨c, cs, hcs, hdigit, hc⟩
  · rw [hzero]
    rfl
  · have hrun := digitRun_digits (Decimal.isDigit_of_mem_toDigits (n := n)) rest
    rw [hcs, List.cons_append] at hrun ⊢
    rw [readWhole.eq_2 _ (by simp [hc]), readDigits, if_pos hdigit, hrun]

theorem readDecimal_toDigits {n : ℕ} (h : n < Int64.size / 2) (rest : List Char) :
    readDecimal false (Nat.toDigits 10 n ++ '\n' :: rest) = some (.integer n, '\n' :: rest) := by
  have hvalue : ofDigits 10 (Nat.toDigits 10 n) = n :=
    (ofDigits_eq_ofDigitChars Decimal.isDigit_of_mem_toDigits 0).trans Nat.ofDigitChars_ten_toDigits
  have hmin : Int64.minValue.toInt ≤ 0 := by decide
  have hmax : Int64.maxValue.toInt = (Int64.size / 2 - 1 : ℕ) := by decide
  have hinteger : integer? n = some (.integer n) := by
    rw [integer?, if_pos ⟨by omega, by omega⟩]
  simp [readDecimal, readWhole_toDigits, readFraction, readExponent, hvalue, hinteger]

/-- A zero in front of anything but the end of the line is not written. -/
theorem toDigits_append_ne {d : Char} (hn : d ≠ '\n') (n : ℕ) (rest cs : List Char) :
    Nat.toDigits 10 n ++ '\n' :: rest ≠ '0' :: d :: cs := by
  rcases Decimal.toDigits_cases n with hzero | ⟨c, ds, hds, -, hc⟩
  · rw [hzero]
    exact fun heq => hn (List.cons.inj (List.cons.inj heq).2).1.symm
  · rw [hds]
    exact fun heq => hc (List.cons.inj heq).1

theorem readNumber_toDigits {n : ℕ} (h : n < Int64.size / 2) (rest : List Char) :
    readNumber (Nat.toDigits 10 n ++ '\n' :: rest) = some (.integer n, '\n' :: rest) := by
  rw [readNumber.eq_4 _ (toDigits_append_ne (by decide) n rest)
    (toDigits_append_ne (by decide) n rest) (toDigits_append_ne (by decide) n rest)]
  have hdecimal := readDecimal_toDigits h rest
  obtain ⟨c, cs, hcs, hc⟩ := Decimal.exists_toDigits n
  rw [hcs, List.cons_append] at hdecimal ⊢
  rw [readSign.eq_3 _ (fun _ => Decimal.ne_cons_of_isDigit hc rfl _ _)
    (fun _ => Decimal.ne_cons_of_isDigit hc rfl _ _)]
  simp only
  split
  · next heq => exact absurd heq (Decimal.ne_cons_of_isDigit hc rfl _ _)
  · next heq => exact absurd heq (Decimal.ne_cons_of_isDigit hc rfl _ _)
  · exact hdecimal

/-- A number is read back from its digits. -/
theorem readScalar_toDigits {n : ℕ} (h : n < Int64.size / 2) (rest : List Char) :
    readScalar (Nat.toDigits 10 n ++ '\n' :: rest) = some (.integer n, '\n' :: rest) := by
  obtain ⟨c, cs, hcs, hc⟩ := Decimal.exists_toDigits n
  have hdate := readDateTime_digits (Decimal.isDigit_of_mem_toDigits (n := n)) rest
  have hnumber := readNumber_toDigits h rest
  rw [hcs, List.cons_append] at hdate hnumber ⊢
  have hne {d : Char} (hd : d.isDigit = false) := Decimal.ne_cons_of_isDigit hc hd
  rw [readScalar.eq_5 _ (fun _ => hne rfl _ _) (fun _ => hne rfl _ _) (fun _ => hne rfl _ _)
    (fun _ => hne rfl _ _), hdate, hnumber]

end LedgerKit.Toml
