import LedgerKit.Proofs.Grammar
import Mathlib.Logic.ExistsUnique

/-!
# Which texts are ids

The grammar of ids on its own, without a parser or a printer: an `IsIdText` is three components with
dots between them and perhaps a dash and five lower-case letters behind.  A component is `0` or a
number of 64 bits without a leading zero.

* `EntityId.parse_eq_ok_iff` : a text is read as an id if and only if it is the written form of that
  id with the letters that are attached to it.
* `EntityId.exists_text_iff` : the written forms are the texts of the grammar.
* `EntityId.parse_exact` : both together, and the error for every other text.
-/

namespace LedgerKit

/-! ### The grammar -/

/-- A number as it stands in an id: a zero stands alone or behind another digit, and 64 bits hold
the number. -/
structure IsComponent (cs : List Char) : Prop where
  nonempty : cs ≠ []
  digits : ∀ c ∈ cs, c.isDigit = true
  no_leading_zero : cs.head? = some '0' → cs.length = 1
  fits : Nat.ofDigitChars 10 cs 0 < UInt64.size

/-- Five lower-case ASCII letters. -/
def IsLetters (cs : List Char) : Prop := cs.length = 5 ∧ ∀ c ∈ cs, 'a' ≤ c ∧ c ≤ 'z'

/-- The text of an id: its shard, its realm and its number, and perhaps letters. -/
inductive IsIdText : List Char → Prop where
  | plain {shard realm num : List Char} (hs : IsComponent shard) (hr : IsComponent realm)
      (hn : IsComponent num) : IsIdText (shard ++ '.' :: realm ++ '.' :: num)
  | lettered {shard realm num letters : List Char} (hs : IsComponent shard)
      (hr : IsComponent realm) (hn : IsComponent num) (hl : IsLetters letters) :
      IsIdText (shard ++ '.' :: realm ++ '.' :: num ++ '-' :: letters)

/-! ### Its parts are those that are written -/

/-- What the reader of decimal numbers checks, and what it answers. -/
theorem Decimal.ofChars?_eq_some_iff_spells {cs : List Char} {n : ℕ} :
    ofChars? cs = some n ↔ (cs ≠ [] ∧ (∀ c ∈ cs, c.isDigit = true) ∧
      (cs.head? = some '0' → cs.length = 1)) ∧ Nat.ofDigitChars 10 cs 0 = n := by
  simp only [ofChars?, Option.ite_none_left_eq_some, Option.some.injEq, Bool.or_eq_true,
    List.isEmpty_iff, Bool.not_eq_true', List.all_eq_false, Bool.and_eq_true, beq_iff_eq,
    bne_iff_ne, not_or, not_exists, not_and, Classical.not_not, and_assoc, ne_eq]

theorem isComponent_iff {cs : List Char} :
    IsComponent cs ↔ ∃ n : UInt64, cs = Nat.toDigits 10 n.toNat := by
  constructor
  · intro h
    have hread := Decimal.ofChars?_eq_some_iff_spells.2
      ⟨⟨h.nonempty, h.digits, h.no_leading_zero⟩, rfl⟩
    refine ⟨UInt64.ofNat (Nat.ofDigitChars 10 cs 0), ?_⟩
    rw [UInt64.toNat_ofNat_of_lt' h.fits]
    exact Decimal.ofChars?_eq_some_iff.1 hread
  · rintro ⟨n, rfl⟩
    obtain ⟨⟨hne, hd, hz⟩, hval⟩ := Decimal.ofChars?_eq_some_iff_spells.1
      (Decimal.ofChars?_eq_some_iff.2 rfl : Decimal.ofChars? (Nat.toDigits 10 n.toNat) = _)
    exact ⟨hne, hd, hz, by rw [hval]; exact n.toNat_lt⟩

theorem Checksum.letterValue?_isSome_iff {c : Char} :
    (letterValue? c).isSome ↔ 'a' ≤ c ∧ c ≤ 'z' := by
  have ha : 'a'.toNat = 97 := rfl
  have hz : 'z'.toNat = 122 := rfl
  rw [Char.le_def, Char.le_def, UInt32.le_iff_toNat_le, UInt32.le_iff_toNat_le]
  unfold letterValue?
  split
  · next h => simpa using h
  · next h => simpa using h

theorem isLetters_iff {cs : List Char} : IsLetters cs ↔ ∃ k : Checksum, cs = k.letters := by
  constructor
  · rintro ⟨hlen, hc⟩
    match cs, hlen with
    | [a, b, c, d, e], _ =>
      simp only [List.forall_mem_cons, ← Checksum.letterValue?_isSome_iff,
        Option.isSome_iff_exists] at hc
      obtain ⟨⟨a', ha⟩, ⟨b', hb⟩, ⟨c', hc⟩, ⟨d', hd⟩, ⟨e', he⟩, -⟩ := hc
      refine ⟨.ofDigits a' b' c' d' e', Checksum.ofChars?_eq_some_iff.1 ?_⟩
      simp only [Checksum.ofChars?, ha, hb, hc, hd, he]
      rfl
  · rintro ⟨k, rfl⟩
    obtain ⟨a, b, c, d, e, rfl⟩ := Checksum.exists_ofDigits k
    rw [Checksum.letters_ofDigits]
    refine ⟨rfl, ?_⟩
    simp only [List.forall_mem_cons, ← Checksum.letterValue?_isSome_iff,
      Checksum.letterValue?_eq_some_iff.2 rfl, Option.isSome_some, true_and]
    exact fun _ h => absurd h List.not_mem_nil

/-! ### Reading -/

namespace EntityId

/-- The written form with a dash and the attached letters behind it, if there are any. -/
def text (id : EntityId) : String :=
  match id.checksum with
  | none => id.toString
  | some c => id.toString ++ "-" ++ c.toString

theorem toList_text (id : EntityId) : id.text.toList = id.chars := by
  unfold text chars
  cases id.checksum with
  | none => exact String.toList_ofList
  | some c => simp [toString, EntityNumber.toString, Checksum.toString]

theorem parse_eq_ok_iff {s : String} {id : EntityId} : parse s = .ok id ↔ s = id.text := by
  rw [← String.toList_inj, toList_text, ← ofChars?_eq_some_iff]
  unfold parse
  cases ofChars? s.toList <;> simp

theorem parse_eq_error_iff {s : String} {err : IdError} :
    parse s = .error err ↔ (∀ id : EntityId, s ≠ id.text) ∧ err = .malformed s := by
  simp only [ne_eq, ← parse_eq_ok_iff]
  unfold parse
  cases ofChars? s.toList <;> simp [eq_comm]

theorem isIdText_chars_iff {cs : List Char} : IsIdText cs ↔ ∃ id : EntityId, cs = id.chars := by
  constructor
  · rintro (⟨hs, hr, hn⟩ | ⟨hs, hr, hn, hl⟩)
    all_goals
      obtain ⟨s, rfl⟩ := isComponent_iff.1 hs
      obtain ⟨r, rfl⟩ := isComponent_iff.1 hr
      obtain ⟨n, rfl⟩ := isComponent_iff.1 hn
    · exact ⟨⟨⟨s, r, n⟩, none⟩, rfl⟩
    · obtain ⟨k, rfl⟩ := isLetters_iff.1 hl
      exact ⟨⟨⟨s, r, n⟩, some k⟩, rfl⟩
  · rintro ⟨⟨⟨s, r, n⟩, k⟩, rfl⟩
    have hs := isComponent_iff.2 ⟨s, rfl⟩
    have hr := isComponent_iff.2 ⟨r, rfl⟩
    have hn := isComponent_iff.2 ⟨n, rfl⟩
    cases k with
    | none => exact .plain hs hr hn
    | some k => exact .lettered hs hr hn (isLetters_iff.2 ⟨k, rfl⟩)

theorem exists_text_iff {s : String} : (∃ id : EntityId, s = id.text) ↔ IsIdText s.toList := by
  simp only [isIdText_chars_iff, ← toList_text, String.toList_inj]

/-- **Reading is exact.**  A text is read as an id if and only if it is the written form of that id,
with a dash and the letters if any are attached.  So every id has one text; the texts that are read
are those of the grammar, and every other text is refused with an error that quotes the whole of
it. -/
theorem parse_exact :
    (∀ (s : String) (id : EntityId), parse s = .ok id ↔ s = id.text) ∧
    (∀ id : EntityId, ∃! s, parse s = .ok id) ∧
    (∀ s : String, (∃ id, parse s = .ok id) ↔ IsIdText s.toList) ∧
    ∀ s : String, ¬ IsIdText s.toList → parse s = .error (.malformed s) := by
  refine ⟨fun s id => parse_eq_ok_iff, fun id => ?_, fun s => ?_, fun s h => ?_⟩
  · exact ⟨id.text, parse_eq_ok_iff.2 rfl, fun s hs => parse_eq_ok_iff.1 hs⟩
  · simp only [parse_eq_ok_iff, exists_text_iff]
  · refine parse_eq_error_iff.2 ⟨fun id hid => h ?_, rfl⟩
    exact exists_text_iff.1 ⟨id, hid⟩

end EntityId

end LedgerKit
