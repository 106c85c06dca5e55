import LedgerKit.Proofs.Hexadecimal
import Mathlib.Algebra.Group.Nat.Even
import Mathlib.Data.List.Induction

/-!
# The texts of ledgers

A ledger has a name or is written in hexadecimal, and is read from either.  The two notations do not
meet: every name has the letter `t`, which is no digit and no part of the mark.

* `Hex.exists_isDigitsOf_iff` : an even number of digits, in either case, are those of some bytes.
* `Hex.isText_iff` : the same with or without the mark in front.
* `LedgerId.parse_eq_ok_iff` : the texts that a ledger is read from.
* `LedgerId.toString_eq_name_iff`, `LedgerId.toString_of_unnamed` : which of them is written.
* `LedgerId.text_exact` : the texts, what is read from each and what is written for it.
-/

namespace LedgerKit

/-! ### Which texts are digits of bytes -/

namespace Hex

/-- Without the mark that it may begin with, the text is an even number of digits. -/
def IsText (cs : List Char) : Prop :=
  Even (unmarked cs).length ∧ ∀ c ∈ unmarked cs, IsDigit c

theorem IsDigit.exists_digit {c : Char} (h : IsDigit c) : ∃ n < 16, c.toLower = digit n := by
  have htable : ("0123456789abcdefABCDEF".toList.all fun c =>
      (List.range 16).any fun n => c.toLower = digit n) = true := by
    decide +kernel
  simp only [List.all_eq_true, List.any_eq_true, List.mem_range, decide_eq_true_eq] at htable
  exact htable c h

/-- Bytes are read from an even number of digits and from nothing else. -/
theorem exists_isDigitsOf_iff {cs : List Char} :
    (∃ bs, IsDigitsOf bs cs) ↔ Even cs.length ∧ ∀ c ∈ cs, IsDigit c := by
  constructor
  · rintro ⟨bs, h⟩
    exact ⟨⟨bs.length, by rw [h.length, Nat.two_mul]⟩, h.isDigit⟩
  · rintro ⟨heven, hdigits⟩
    -- the digits are taken in pairs, one byte for each
    induction cs using List.twoStepInduction with
    | nil => exact ⟨[], rfl⟩
    | singleton c => exact absurd heven Nat.not_even_one
    | cons_cons c d cs ih =>
      obtain ⟨x, hx, hcx⟩ := (hdigits c (by simp)).exists_digit
      obtain ⟨y, hy, hdy⟩ := (hdigits d (by simp)).exists_digit
      have hrest : Even cs.length := by
        rwa [List.length_cons, List.length_cons, Nat.even_add_one, Nat.even_add_one,
          Classical.not_not] at heven
      obtain ⟨bs, hbs⟩ := ih hrest fun e he => hdigits e (by simp [he])
      obtain ⟨hhigh, hlow⟩ := (ofNat_eq_iff_digits hx hy _).1 rfl
      refine ⟨UInt8.ofNat (16 * x + y) :: bs, ?_⟩
      rw [IsDigitsOf, List.map_cons, List.map_cons, hcx, hdy, hbs, encodeChars_cons, ← hhigh,
        ← hlow]

theorem isText_iff {cs : List Char} : IsText cs ↔ ∃ bs, IsTextOf bs cs := by
  simp only [IsText, ← exists_isDigitsOf_iff, ← decode_unmarked_eq_ok_iff, decode_eq_ok_iff]

end Hex

/-! ### Names -/

namespace Network

variable {m n : Network}

theorem exists_iff {p : Network → Prop} :
    (∃ n, p n) ↔ p mainnet ∨ p testnet ∨ p previewnet := by
  constructor
  · rintro ⟨_ | _ | _, h⟩
    · exact .inl h
    · exact .inr (.inl h)
    · exact .inr (.inr h)
  · rintro (h | h | h) <;> exact ⟨_, h⟩

theorem name_inj : m.name = n.name ↔ m = n := by
  constructor
  · intro h
    have hm := ofName?_eq_some_iff.2 (rfl : m.name = m.name)
    rw [ofName?_eq_some_iff.2 h] at hm
    exact (Option.some.inj hm).symm
  · rintro rfl
    rfl

/-- No name is taken for digits. -/
theorem not_isText_name (n : Network) : ¬ Hex.IsText n.name.toList := by
  rintro ⟨-, hdigits⟩
  have ht : 't' ∈ Hex.unmarked n.name.toList := by cases n <;> decide
  have hnot : 't' ∉ "0123456789abcdefABCDEF".toList := by decide
  exact hnot (hdigits 't' ht)

end Network

/-! ### Ledgers -/

namespace LedgerId

variable {text : String} {l : LedgerId} {n : Network}

/-- **A ledger is read** from its name, if it has one, and from the digits of its bytes. -/
theorem parse_eq_ok_iff : parse text = .ok l ↔
    (∃ n : Network, text = n.name ∧ l = n.ledger) ∨ Hex.IsTextOf l.bytes text.toList := by
  unfold parse
  split
  · next n hn =>
    obtain rfl := Network.ofName?_eq_some_iff.1 hn
    have hdigits : ¬ Hex.IsTextOf l.bytes n.name.toList := fun h =>
      n.not_isText_name (Hex.isText_iff.2 ⟨l.bytes, h⟩)
    rw [or_iff_left hdigits, Except.ok.injEq]
    constructor
    · rintro rfl
      exact ⟨n, rfl, rfl⟩
    · rintro ⟨m, hm, rfl⟩
      rw [Network.name_inj.1 hm]
  · next hn =>
    have hname : ¬ ∃ n : Network, text = n.name ∧ l = n.ledger := by
      rintro ⟨n, h, -⟩
      rw [Network.ofName?_eq_some_iff.2 h] at hn
      cases hn
    rw [or_iff_right hname, ← Hex.decode_unmarked_eq_ok_iff]
    cases l
    split
    · next bs h => rw [h, Except.ok.injEq, Except.ok.injEq, LedgerId.mk.injEq]
    · next cause h => simp [h]

theorem parse_name (n : Network) : parse n.name = .ok n.ledger :=
  parse_eq_ok_iff.2 (.inl ⟨n, rfl, rfl⟩)

theorem exists_parse_iff : (∃ l, parse text = .ok l) ↔
    (∃ n : Network, text = n.name) ∨ Hex.IsText text.toList := by
  constructor
  · rintro ⟨l, h⟩
    rcases parse_eq_ok_iff.1 h with ⟨n, hname, -⟩ | hdigits
    · exact .inl ⟨n, hname⟩
    · exact .inr (Hex.isText_iff.2 ⟨l.bytes, hdigits⟩)
  · rintro (⟨n, rfl⟩ | h)
    · exact ⟨n.ledger, parse_name n⟩
    · obtain ⟨bs, hdigits⟩ := Hex.isText_iff.1 h
      exact ⟨⟨bs⟩, parse_eq_ok_iff.2 (.inr hdigits)⟩

/-- A text that is not read is quoted in the error, with the reason why it is not hexadecimal. -/
theorem parse_of_forall_ne (h : ∀ l, parse text ≠ .ok l) :
    ∃ cause, Hex.decode (Hex.unmarked text.toList) = .error cause ∧
      parse text = .error (.malformedLedger text cause) := by
  unfold parse at h ⊢
  split at h
  · next n hn => exact absurd rfl (h n.ledger)
  · next hn =>
    split at h
    · next bs hbs => exact absurd rfl (h ⟨bs⟩)
    · next cause hcause => exact ⟨cause, hcause, rfl⟩

theorem toString_injective : Function.Injective toString := by
  intro l m h
  have hl := parse_toString l
  rw [h, parse_toString] at hl
  exact (Except.ok.inj hl).symm

theorem toString_ledger (n : Network) : n.ledger.toString = n.name := by
  cases n <;> decide

theorem toString_eq_name_iff : l.toString = n.name ↔ l = n.ledger := by
  rw [← toString_ledger, toString_injective.eq_iff]

theorem toString_of_unnamed (h : ∀ n : Network, l ≠ n.ledger) :
    l.toString = Hex.encode l.bytes := by
  have hnone : l.network? = none := by
    rw [network?, List.find?_eq_none]
    intro n _ hn
    exact h n (beq_iff_eq.1 hn).symm
  rw [toString, name?, hnone, Option.map_none, Option.getD_none]

/-- **The texts of ledgers.**  A ledger is read back from its text, so no two ledgers share one.
The texts that are read are the three names, for the ledgers `00`, `01` and `02`, and the even
numbers of hexadecimal digits in either case, with or without `0x` in front, for the bytes they
spell; no text is both.  These three ledgers are written by their names, all others in lower-case
digits, and what is written is read as before.  Every other text is refused and quoted in the
error. -/
theorem text_exact :
    (∀ l : LedgerId, parse l.toString = .ok l) ∧ Function.Injective toString ∧
    (∀ (text : String) (l : LedgerId), parse text = .ok l ↔
      (text = "mainnet" ∧ l = ⟨[0]⟩ ∨ text = "testnet" ∧ l = ⟨[1]⟩ ∨
        text = "previewnet" ∧ l = ⟨[2]⟩) ∨ Hex.IsTextOf l.bytes text.toList) ∧
    (∀ text : String, (∃ l, parse text = .ok l) ↔
      (text = "mainnet" ∨ text = "testnet" ∨ text = "previewnet") ∨
        (Even (Hex.unmarked text.toList).length ∧
          ∀ c ∈ Hex.unmarked text.toList, Hex.IsDigit c)) ∧
    (∀ (text : String) (bs : Bytes), text = "mainnet" ∨ text = "testnet" ∨ text = "previewnet" →
      ¬ Hex.IsTextOf bs text.toList) ∧
    (∀ (text : String) (l : LedgerId), parse text = .ok l →
      (l.toString = "mainnet" ↔ l = ⟨[0]⟩) ∧ (l.toString = "testnet" ↔ l = ⟨[1]⟩) ∧
      (l.toString = "previewnet" ↔ l = ⟨[2]⟩) ∧
      (l ≠ ⟨[0]⟩ ∧ l ≠ ⟨[1]⟩ ∧ l ≠ ⟨[2]⟩ → l.toString = Hex.encode l.bytes ∧
        ∀ c ∈ l.toString.toList, Hex.IsLowerDigit c) ∧
      parse l.toString = parse text) ∧
    ∀ text : String, (∀ l, parse text ≠ .ok l) →
      ∃ cause, parse text = .error (.malformedLedger text cause) := by
  refine ⟨parse_toString, toString_injective, fun text l => ?_, fun text => ?_, fun text bs h => ?_,
    fun text l h => ⟨toString_eq_name_iff (n := .mainnet), toString_eq_name_iff (n := .testnet),
      toString_eq_name_iff (n := .previewnet), fun hne => ?_, ?_⟩, fun text h => ?_⟩
  · rw [parse_eq_ok_iff, Network.exists_iff]
    rfl
  · rw [exists_parse_iff, Network.exists_iff]
    rfl
  · obtain ⟨n, rfl⟩ : ∃ n : Network, text = n.name := Network.exists_iff.2 h
    intro hdigits
    exact n.not_isText_name (Hex.isText_iff.2 ⟨bs, hdigits⟩)
  · obtain ⟨hmain, htest, hpreview⟩ := hne
    have hwritten : l.toString = Hex.encode l.bytes := by
      apply toString_of_unnamed
      rintro (_ | _ | _)
      exacts [hmain, htest, hpreview]
    refine ⟨hwritten, ?_⟩
    rw [hwritten]
    exact Hex.isLowerDigit_encode l.bytes
  · rw [h, parse_toString]
  · obtain ⟨cause, -, hrefused⟩ := parse_of_forall_ne h
    exact ⟨cause, hrefused⟩

end LedgerId

end LedgerKit
