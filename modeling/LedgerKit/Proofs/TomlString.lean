import LedgerKit.Toml.Printer
import Mathlib.Data.Nat.Notation

/-!
# Quoted strings, written and read

A string is read back in whichever notation it was written (`readString_writeString`).  Between
quotation marks a character stands for itself or is escaped (`Spelling`), and both readers take a
spelling for the character.  Between triple marks, single marks stand for themselves; the only ones
that the reader takes together are the last two before the closing ones (`closeLong`).
-/

namespace LedgerKit.Toml

/-! ### Characters between quotation marks -/

/-- The ways to spell a character between quotation marks: as itself, by a letter or by its
number. -/
inductive Spelling (c : Char) : List Char → Prop where
  | itself : isTextChar c = true → c ≠ '\\' → c ≠ '"' → Spelling c [c]
  | letter {l : Char} : escaped? l = some c → Spelling c ['\\', l]
  | number : c.toNat < 0x80 → Spelling c ('\\' :: 'u' :: codeDigits c.toNat)

theorem isTextChar_of_not_isHidden {c : Char} (h : isHidden c = false) (hn : c ≠ '\n') :
    isTextChar c = true := by
  simp only [isHidden, Bool.or_eq_false_iff, Bool.and_eq_false_iff, decide_eq_false_iff_not,
    beq_eq_false_iff_ne, bne_eq_false_iff_eq] at h
  simp only [isTextChar, Bool.or_eq_true, Bool.and_eq_true, decide_eq_true_eq, beq_iff_eq,
    bne_iff_ne]
  obtain ⟨(hlow | rfl) | rfl, hdel⟩ := h
  · exact .inr ⟨by omega, hdel⟩
  · exact .inl rfl
  · exact absurd rfl hn

theorem lt_of_isHidden {c : Char} (h : isHidden c = true) : c.toNat < 0x80 := by
  simp only [isHidden, Bool.or_eq_true, Bool.and_eq_true, decide_eq_true_eq, beq_iff_eq] at h
  omega

theorem spelling_writeChar {c : Char} (hn : c ≠ '\n') (hq : c ≠ '"') :
    Spelling c (writeChar c) := by
  unfold writeChar
  split
  · next h => exact .letter (by rw [h]; rfl)
  split
  · next h => exact .letter (by rw [h]; rfl)
  split
  · next h => exact .letter (by rw [h]; rfl)
  split
  · next h => exact .letter (by rw [h]; rfl)
  split
  · next h => exact .letter (by rw [h]; rfl)
  split
  · next h => exact .number (lt_of_isHidden h)
  · next hb _ _ _ hs hh =>
    exact .itself (isTextChar_of_not_isHidden (by simpa using hh) hn) hs hq

theorem spelling_writeShortChar (c : Char) : Spelling c (writeShortChar c) := by
  unfold writeShortChar
  split
  · next h => exact .letter (by rw [h]; rfl)
  split
  · next h => exact .letter (by rw [h]; rfl)
  · next hn hq => exact spelling_writeChar hn hq

/-- The four digits of a number, read one after the other. -/
theorem codeDigits_eq {n : ℕ} (h : n < 0x80) : ∃ a b, codeDigits n = ['0', '0', a, b] ∧
    hexValue? a = some (n / 16) ∧ hexValue? b = some (n % 16) := by
  have htable : ∀ n < 16, hexValue? ("0123456789ABCDEF".toList.getD n '0') = some n := by decide
  refine ⟨"0123456789ABCDEF".toList.getD (n / 16) '0', "0123456789ABCDEF".toList.getD (n % 16) '0',
    ?_, htable _ (by omega), htable _ (by omega)⟩
  have h3 : n >>> 12 % 16 = 0 := by rw [Nat.shiftRight_eq_div_pow]; omega
  have h2 : n >>> 8 % 16 = 0 := by rw [Nat.shiftRight_eq_div_pow]; omega
  have h1 : n >>> 4 % 16 = n / 16 := by rw [Nat.shiftRight_eq_div_pow]; omega
  simp [codeDigits, h3, h2, h1]

theorem charOfCode?_toNat (c : Char) : charOfCode? c.toNat = some c := by
  have hvalid : c.toNat.isValidChar := c.valid
  rw [charOfCode?, if_pos hvalid, Char.ofNat_toNat]

theorem readShort_append {c : Char} {w : List Char} (h : Spelling c w) (tail : List Char) :
    readShort .text (w ++ tail) = (readShort .text tail).map fun r => (c :: r.1, r.2) := by
  cases h with
  | itself htext hs hq =>
    rw [List.singleton_append, readShort.eq_3 _ _ hq hs, if_pos htext]
  | letter hl => simp [readShort, hl]
  | number hlt =>
    obtain ⟨a, b, hdigits, ha, hb⟩ := codeDigits_eq hlt
    have hzero : hexValue? '0' = some 0 := by decide
    have hcode : 16 * (c.toNat / 16) + c.toNat % 16 = c.toNat := by omega
    simp [readShort, escaped?, codeLength?, hdigits, hzero, ha, hb, hcode, charOfCode?_toNat]

/-- The letters that follow a backslash are no white space. -/
theorem not_isBlank_of_escaped? {l c : Char} (h : escaped? l = some c) :
    isBlank l = false ∧ l ≠ '\n' ∧ l ≠ '\r' := by
  unfold escaped? at h
  split at h <;> cases h <;> decide

theorem readLong_append {c : Char} {w : List Char} (h : Spelling c w) (tail : List Char) :
    readLong .text (w ++ tail) = (readLong .text tail).map fun r => (c :: r.1, r.2) := by
  cases h with
  | itself htext hs hq =>
    have hr : c ≠ '\r' := by
      rintro rfl
      exact absurd htext (by decide)
    simp [readLong, htext, hs, hq, hr]
  | letter hl =>
    obtain ⟨hblank, hn, hr⟩ := not_isBlank_of_escaped? hl
    simp [readLong, hl, hblank, hn, hr]
  | number hlt =>
    obtain ⟨a, b, hdigits, ha, hb⟩ := codeDigits_eq hlt
    have hzero : hexValue? '0' = some 0 := by decide
    have hcode : 16 * (c.toNat / 16) + c.toNat % 16 = c.toNat := by omega
    have hu : isBlank 'u' = false := by decide
    simp [readLong, escaped?, codeLength?, hdigits, hzero, ha, hb, hcode, hu, charOfCode?_toNat]

/-- A spelling begins with a character that is neither a quotation mark nor a line end. -/
theorem Spelling.exists_cons {c : Char} {w : List Char} (h : Spelling c w) :
    ∃ a t, w = a :: t ∧ a ≠ '"' ∧ a ≠ '\n' ∧ a ≠ '\r' := by
  cases h with
  | itself htext hs hq =>
    refine ⟨c, [], rfl, hq, ?_, ?_⟩ <;> rintro rfl <;> exact absurd htext (by decide)
  | letter hl => exact ⟨'\\', _, rfl, by decide⟩
  | number hlt => exact ⟨'\\', _, rfl, by decide⟩

/-! ### One mark on each side -/

theorem readShort_flatMap (cs tail : List Char) :
    readShort .text (cs.flatMap writeShortChar ++ '"' :: tail) = some (cs, tail) := by
  induction cs with
  | nil => rfl
  | cons c cs ih =>
    rw [List.flatMap_cons, List.append_assoc, readShort_append (spelling_writeShortChar c), ih]
    rfl

theorem readShortLiteral_append {cs : List Char} (h : ∀ c ∈ cs, isTextChar c = true ∧ c ≠ '\'')
    (tail : List Char) : readShortLiteral (cs ++ '\'' :: tail) = some (cs, tail) := by
  induction cs with
  | nil => rfl
  | cons c cs ih =>
    obtain ⟨htext, hc⟩ := h c List.mem_cons_self
    rw [List.cons_append, readShortLiteral.eq_2 _ _ (by simpa using hc), if_pos htext,
      ih fun d hd => h d (List.mem_cons_of_mem c hd)]
    rfl

/-! ### Three marks on each side -/

/-- Where no mark follows, the three marks close the string. -/
theorem closeLong_of_ne {mark a : Char} (h : a ≠ mark) (cs : List Char) :
    closeLong mark (a :: cs) = ([], a :: cs) := by
  cases cs with
  | nil => rw [closeLong, if_neg h]
  | cons b cs => rw [closeLong, if_pos h]

/-- The text does not begin with two marks. -/
def NotTwo (mark : Char) (cs : List Char) : Prop := ∀ t, cs ≠ mark :: mark :: t

theorem notTwo_of_ne_first {mark a : Char} (h : a ≠ mark) (cs : List Char) :
    NotTwo mark (a :: cs) := by
  rintro t ht
  cases ht
  exact h rfl

theorem notTwo_of_ne_second {mark b : Char} (h : b ≠ mark) (a : Char) (cs : List Char) :
    NotTwo mark (a :: b :: cs) := by
  rintro t ht
  cases ht
  exact h rfl

/-- A mark that two others do not follow stands for itself. -/
theorem readLong_mark {cs : List Char} (h : NotTwo '"' cs) :
    readLong .text ('"' :: cs) = (readLong .text cs).map fun r => ('"' :: r.1, r.2) := by
  rw [readLong.eq_3 _ _ (by rintro t - rfl; exact h t rfl)]
  rfl

/-- Nothing that is written begins with a mark, but a mark itself with fewer than two before it. -/
theorem exists_writeLong {run : ℕ} {c : Char} (h : c ≠ '"' ∨ run = 2) (cs : List Char) :
    ∃ a t, writeLong run (c :: cs) = a :: t ∧ a ≠ '"' := by
  by_cases hq : c = '"'
  · have hrun : run = 2 := h.resolve_left (not_not_intro hq)
    exact ⟨'\\', _, by rw [writeLong, if_pos hq, if_pos hrun], by decide⟩
  by_cases hn : c = '\n'
  · exact ⟨'\n', _, by rw [writeLong, if_neg hq, if_pos hn], by decide⟩
  · obtain ⟨a, t, hw, ha, -⟩ := (spelling_writeChar hn hq).exists_cons
    exact ⟨a, _, by rw [writeLong, if_neg hq, if_neg hn, hw]; rfl, ha⟩

/-- After a mark, two more are written only at the end of the string. -/
theorem notTwo_writeLong {run : ℕ} {cs : List Char} (hrun : run = 1 ∨ run = 2) (hne : cs ≠ [])
    (hlast : run = 1 → cs ≠ ['"']) (tail : List Char) : NotTwo '"' (writeLong run cs ++ tail) := by
  obtain ⟨c, cs, rfl⟩ := List.exists_cons_of_ne_nil hne
  by_cases hc : c ≠ '"' ∨ run = 2
  · obtain ⟨a, t, hw, ha⟩ := exists_writeLong hc cs
    rw [hw]
    exact notTwo_of_ne_first ha _
  · -- a mark after one other: the character behind it comes after two
    obtain ⟨hq, htwo⟩ := not_or.1 hc
    obtain rfl := Decidable.not_not.1 hq
    obtain rfl := hrun.resolve_right htwo
    have hnil : cs ≠ [] := fun h => hlast rfl (by rw [h])
    obtain ⟨d, cs, rfl⟩ := List.exists_cons_of_ne_nil hnil
    obtain ⟨a, t, hw, ha⟩ := exists_writeLong (.inr rfl : d ≠ '"' ∨ 2 = 2) cs
    rw [writeLong, if_pos rfl, if_neg (by decide), hw]
    exact notTwo_of_ne_second ha _ _

/-- The last two marks of a string stand right before the closing ones, and are read with them; all
others are read one by one. -/
theorem readLong_writeLong {run : ℕ} (h : run ≤ 2) (cs rest : List Char) :
    readLong .text (writeLong run cs ++ '"' :: '"' :: '"' :: '\n' :: rest)
      = some (cs, '\n' :: rest) := by
  induction cs generalizing run with
  | nil => exact (readLong.eq_1 _).trans (by rw [closeLong_of_ne (by decide)])
  | cons c cs ih =>
    by_cases hq : c = '"'
    · -- the third mark in a row has a backslash, and the first two are closing marks or stand alone
      subst hq
      by_cases hrun : run = 2
      · have hmark : Spelling '"' ['\\', '"'] := .letter rfl
        have hwritten : writeLong run ('"' :: cs) = ['\\', '"'] ++ writeLong 0 cs := by
          rw [writeLong, if_pos rfl, if_pos hrun]
          rfl
        rw [hwritten, List.append_assoc, readLong_append hmark, ih (by decide)]
        rfl
      rw [writeLong, if_pos rfl, if_neg hrun, List.cons_append]
      by_cases hnil : cs = []
      · subst hnil
        rfl
      by_cases hlast : run = 0 ∧ cs = ['"']
      · obtain ⟨rfl, rfl⟩ := hlast
        rfl
      rw [readLong_mark (notTwo_writeLong (by omega) hnil (by grind) _), ih (by omega)]
      rfl
    by_cases hn : c = '\n'
    · rw [writeLong, if_neg hq, if_pos hn, List.cons_append,
        readLong.eq_3 _ _ fun _ hmark => absurd hmark (by decide)]
      subst hn
      simp [ih]
    · rw [writeLong, if_neg hq, if_neg hn, List.append_assoc,
        readLong_append (spelling_writeChar hn hq), ih (by decide)]
      rfl

theorem hasTriple_tail {mark c : Char} {cs : List Char} (h : hasTriple mark (c :: cs) = false) :
    hasTriple mark cs = false := by
  match cs with
  | [] | [_] => rfl
  | a :: b :: cs =>
    rw [hasTriple, Bool.or_eq_false_iff] at h
    exact h.2

/-- Without three marks in a row, two follow a mark only at the end of the string. -/
theorem notTwo_of_hasTriple {mark : Char} {cs : List Char}
    (h : hasTriple mark (mark :: cs) = false) (hne : cs ≠ []) (hlast : cs ≠ [mark])
    (tail : List Char) : NotTwo mark (cs ++ tail) := by
  match cs with
  | [a] => exact notTwo_of_ne_first (by simpa using hlast) _
  | a :: b :: cs =>
    rw [hasTriple] at h
    by_cases ha : a = mark
    · exact notTwo_of_ne_second (by simp_all) _ _
    · exact notTwo_of_ne_first ha _

theorem readLongLiteral_append {cs : List Char} (h : ∀ c ∈ cs, c = '\n' ∨ isTextChar c = true)
    (htriple : hasTriple '\'' cs = false) (rest : List Char) :
    readLongLiteral (cs ++ '\'' :: '\'' :: '\'' :: '\n' :: rest) = some (cs, '\n' :: rest) := by
  induction cs with
  | nil => exact (readLongLiteral.eq_1 _).trans (by rw [closeLong_of_ne (by decide)])
  | cons c cs ih =>
    rw [List.cons_append]
    by_cases hnil : c = '\'' ∧ cs = []
    · obtain ⟨rfl, rfl⟩ := hnil
      rfl
    by_cases hlast : c = '\'' ∧ cs = ['\'']
    · obtain ⟨rfl, rfl⟩ := hlast
      rfl
    have hmarks : ∀ t, c = '\'' →
        cs ++ '\'' :: '\'' :: '\'' :: '\n' :: rest ≠ '\'' :: '\'' :: t := by
      rintro t rfl
      exact notTwo_of_hasTriple htriple (by simpa using hnil) (by simpa using hlast) _ t
    have hr : c ≠ '\r' := by
      rintro rfl
      exact absurd (h _ List.mem_cons_self) (by decide)
    have hstep : (decide (c = '\n') || isTextChar c) = true := by
      simpa using h c List.mem_cons_self
    rw [readLongLiteral.eq_2 _ _ hmarks, if_neg hr, if_pos hstep,
      ih (fun d hd => h d (List.mem_cons_of_mem c hd)) (hasTriple_tail htriple)]
    rfl

/-! ### The four notations -/

theorem readString_of_notTwo {cs : List Char} (h : NotTwo '"' cs) :
    readString ('"' :: cs) = (readShort .text cs).map fun r => (String.ofList r.1, r.2) := by
  simp only [readString]
  split
  · next heq =>
    cases heq
    exact absurd rfl (h _)
  · next heq => cases heq; rfl
  · next heq => simp at heq
  · next heq => simp at heq
  · next hne _ _ => exact absurd rfl (hne cs)

theorem readString_of_notTwo_literal {cs : List Char} (h : NotTwo '\'' cs) :
    readString ('\'' :: cs) = (readShortLiteral cs).map fun r => (String.ofList r.1, r.2) := by
  simp only [readString]
  split
  · next heq => simp at heq
  · next heq => simp at heq
  · next heq =>
    cases heq
    exact absurd rfl (h _)
  · next heq => cases heq; rfl
  · next hne => exact absurd rfl (hne cs)

theorem readString_short (cs rest : List Char) :
    readString ('"' :: (cs.flatMap writeShortChar ++ '"' :: '\n' :: rest))
      = some (String.ofList cs, '\n' :: rest) := by
  rw [readString_of_notTwo, readShort_flatMap]
  · rfl
  · match cs with
    | [] => exact notTwo_of_ne_second (by decide) _ _
    | c :: cs =>
      obtain ⟨a, t, hw, ha, -⟩ := (spelling_writeShortChar c).exists_cons
      rw [List.flatMap_cons, hw]
      exact notTwo_of_ne_first ha _

theorem readString_shortLiteral {cs : List Char} (h : ∀ c ∈ cs, isTextChar c = true ∧ c ≠ '\'')
    (rest : List Char) : readString ('\'' :: (cs ++ '\'' :: '\n' :: rest))
      = some (String.ofList cs, '\n' :: rest) := by
  rw [readString_of_notTwo_literal, readShortLiteral_append h]
  · rfl
  · match cs with
    | [] => exact notTwo_of_ne_second (by decide) _ _
    | c :: cs => exact notTwo_of_ne_first (h c List.mem_cons_self).2 _

theorem betweenTriples_append (mark : Char) (newline : Bool) (inner tail : List Char) :
    betweenTriples mark newline inner ++ tail = mark :: mark :: mark ::
      ((if newline then ['\n'] else []) ++ (inner ++ mark :: mark :: mark :: tail)) := by
  simp [betweenTriples]

/-- The line end that is written after the opening marks is the only one that is passed over. -/
theorem dropNewline_opened {newline : Bool} {cs : List Char}
    (h : newline = false → ∃ a t, cs = a :: t ∧ a ≠ '\n' ∧ a ≠ '\r') :
    dropNewline ((if newline then ['\n'] else []) ++ cs) = cs := by
  cases newline with
  | true => rfl
  | false =>
    obtain ⟨a, t, rfl, hn, hr⟩ := h rfl
    simp [dropNewline, afterNewline?, hn, hr]

theorem readString_long {newline : Bool} {cs : List Char} (h : newline = false → '\n' ∉ cs)
    (rest : List Char) :
    readString (betweenTriples '"' newline (writeLong 0 cs) ++ '\n' :: rest)
      = some (String.ofList cs, '\n' :: rest) := by
  have hread := readLong_writeLong (by decide : 0 ≤ 2) cs rest
  rw [betweenTriples_append, readString, dropNewline_opened, hread]
  · rfl
  · intro hnewline
    match cs with
    | [] => exact ⟨'"', _, rfl, by decide⟩
    | c :: cs =>
      by_cases hq : c = '"'
      · exact ⟨'"', _, by rw [writeLong, if_pos hq]; rfl, by decide⟩
      · have hn : c ≠ '\n' := fun hc => h hnewline (hc ▸ List.mem_cons_self)
        obtain ⟨a, t, hw, -, hline⟩ := (spelling_writeChar hn hq).exists_cons
        exact ⟨a, _, by rw [writeLong, if_neg hq, if_neg hn, hw]; rfl, hline⟩

theorem readString_longLiteral {newline : Bool} {cs : List Char}
    (h : ∀ c ∈ cs, c = '\n' ∨ isTextChar c = true) (htriple : hasTriple '\'' cs = false)
    (hnewline : newline = false → '\n' ∉ cs) (rest : List Char) :
    readString (betweenTriples '\'' newline cs ++ '\n' :: rest)
      = some (String.ofList cs, '\n' :: rest) := by
  have hread := readLongLiteral_append h htriple rest
  rw [betweenTriples_append, readString, dropNewline_opened, hread]
  · rfl
  · intro hfalse
    match cs with
    | [] => exact ⟨'\'', _, rfl, by decide⟩
    | c :: cs =>
      have hn : c ≠ '\n' := fun hc => hnewline hfalse (hc ▸ List.mem_cons_self)
      refine ⟨c, _, rfl, hn, ?_⟩
      rintro rfl
      exact absurd (h _ List.mem_cons_self) (by decide)

theorem isTextChar_of_any_isHidden {cs : List Char} (h : cs.any isHidden = false) :
    ∀ c ∈ cs, c = '\n' ∨ isTextChar c = true := by
  intro c hc
  by_cases hn : c = '\n'
  · exact .inl hn
  · exact .inr (isTextChar_of_not_isHidden (by simpa using List.any_eq_false.1 h c hc) hn)

/-- A string is read back from the notation it was written in. -/
theorem readString_writeString (cs rest : List Char) :
    readString (writeString cs ++ '\n' :: rest) = some (String.ofList cs, '\n' :: rest) := by
  simp only [writeString]
  split
  · simpa using readString_short cs rest
  split
  · next h =>
    simp only [Bool.and_eq_true, Bool.not_eq_true', List.contains_eq_mem,
      decide_eq_false_iff_not] at h
    have hchar : ∀ c ∈ cs, isTextChar c = true ∧ c ≠ '\'' := by
      refine fun c hc => ⟨(isTextChar_of_any_isHidden h.1.1 c hc).resolve_left ?_, ?_⟩
      · exact fun hn => h.1.2 (hn ▸ hc)
      · exact fun hq => h.2 (hq ▸ hc)
    simpa using readString_shortLiteral hchar rest
  split
  · exact readString_long (by simp) rest
  split
  · next h =>
    simp only [Bool.and_eq_true, Bool.not_eq_true'] at h
    exact readString_longLiteral (isTextChar_of_any_isHidden h.1) h.2 (by simp) rest
  split
  · exact readString_long (by simp) rest
  · simpa using readString_short cs rest

end LedgerKit.Toml
