import LedgerKit.Json.Codec
import Mathlib.Data.Nat.Notation

/-!
# The texts of values

What is written for a value is read as that value, whatever stands behind it that cannot belong to
it (`IsRead`): another element, or the end of the array or object that the value is in.

* `isRead_ofNat`, `isRead_ofText` : numbers and texts.
* `isRead_array`, `isRead_object` : arrays and objects whose parts are read back.
* `parse?_writeValue` : a document that is a written value.
-/

namespace LedgerKit

namespace Json

/-- What may stand behind a value within another, or behind the whole. -/
def Follows (rest : List Char) : Prop := ∀ c ∈ rest.head?, c = ',' ∨ c = ']' ∨ c = '\x7d'

/-- The value is read from what is written for it, by as many levels as that has characters. -/
structure IsRead (v : Value) : Prop where
  /-- What is written begins with something that is no blank and does not end an array. -/
  starts : ∃ c cs, writeValue v = c :: cs ∧ isBlank c = false ∧ c ≠ ']'
  /-- It is read back. -/
  reads : ∀ depth rest, (writeValue v).length ≤ depth → Follows rest →
    readValue depth (writeValue v ++ rest) = some (v, rest)

/-- It is enough to say how the value is read from what begins with the first character of it, with
a level for every other one. -/
theorem IsRead.of_cons {v : Value} {c : Char} {cs : List Char} (hwrite : writeValue v = c :: cs)
    (hblank : isBlank c = false) (hend : c ≠ ']')
    (hread : ∀ depth rest, cs.length ≤ depth → Follows rest →
      readValue (depth + 1) (c :: (cs ++ rest)) = some (v, rest)) : IsRead v := by
  refine ⟨⟨c, cs, hwrite, hblank, hend⟩, ?_⟩
  intro depth rest hdepth hrest
  rw [hwrite, List.length_cons] at hdepth
  obtain ⟨depth, rfl⟩ := Nat.exists_eq_succ_of_ne_zero (Nat.ne_zero_of_lt hdepth)
  rw [hwrite]
  exact hread depth rest (Nat.le_of_succ_le_succ hdepth) hrest

/-! ### Numbers -/

theorem Follows.not_digit {rest : List Char} (h : Follows rest) :
    ∀ c ∈ rest.head?, c.isDigit = false := by
  intro c hc
  rcases h c hc with rfl | rfl | rfl <;> decide

theorem takeWhile_digits {ds rest : List Char} (hd : ∀ c ∈ ds, c.isDigit = true)
    (hr : ∀ c ∈ rest.head?, c.isDigit = false) : (ds ++ rest).takeWhile Char.isDigit = ds := by
  rw [List.takeWhile_append_of_pos hd]
  cases rest with
  | nil => simp
  | cons c rest => simp [hr c rfl]

theorem dropWhile_digits {ds rest : List Char} (hd : ∀ c ∈ ds, c.isDigit = true)
    (hr : ∀ c ∈ rest.head?, c.isDigit = false) : (ds ++ rest).dropWhile Char.isDigit = rest := by
  rw [List.dropWhile_append_of_pos hd]
  cases rest with
  | nil => simp
  | cons c rest => simp [hr c rfl]

theorem readWhole_toDigits (n : ℕ) {rest : List Char} (h : Follows rest) :
    readWhole (Nat.toDigits 10 n ++ rest) = some (Nat.toDigits 10 n, rest) := by
  have hall := Decimal.isDigit_of_mem_toDigits (n := n)
  rcases Decimal.toDigits_cases n with hzero | ⟨c, cs, hcs, -, hc⟩
  · rw [hzero]
    have hany : rest.head?.any Char.isDigit = false := by
      cases hh : rest.head? with
      | none => rfl
      | some d => exact h.not_digit d hh
    simp [readWhole, hany]
  · have hread : readWhole (Nat.toDigits 10 n ++ rest) =
        readDigits (Nat.toDigits 10 n ++ rest) := by
      rw [hcs, List.cons_append]
      unfold readWhole
      split
      · next heq => exact absurd (List.cons.inj heq).1 hc
      · rfl
    rw [hread]
    unfold readDigits
    simp [takeWhile_digits hall h.not_digit, dropWhile_digits hall h.not_digit, Nat.toDigits_ne_nil]

theorem readFraction_of_follows {rest : List Char} (h : Follows rest) :
    readFraction rest = some ([], rest) := by
  unfold readFraction
  split
  · next cs => rcases h '.' rfl with hc | hc | hc <;> exact absurd hc (by decide)
  · rfl

theorem readExponent_of_follows {rest : List Char} (h : Follows rest) :
    readExponent rest = some ([], rest) := by
  cases rest with
  | nil => rfl
  | cons c rest => rcases h c rfl with rfl | rfl | rfl <;> rfl

theorem readNumber_toDigits (n : ℕ) {rest : List Char} (h : Follows rest) :
    readNumber (Nat.toDigits 10 n ++ rest) = some (Nat.toDigits 10 n, rest) := by
  have hunsigned : readUnsigned (Nat.toDigits 10 n ++ rest) = some (Nat.toDigits 10 n, rest) := by
    simp [readUnsigned, readWhole_toDigits n h, readFraction_of_follows h,
      readExponent_of_follows h]
  rw [← hunsigned]
  unfold readNumber
  split
  · next heq =>
    obtain ⟨c, ds, hds, hc⟩ := Decimal.exists_toDigits n
    rw [hds] at heq
    exact absurd heq (Decimal.ne_cons_of_isDigit hc rfl _ _)
  · rfl

theorem isBlank_of_isDigit {c : Char} (h : c.isDigit = true) : isBlank c = false := by
  simp only [isBlank, Bool.or_eq_false_iff, beq_eq_false_iff_ne]
  refine ⟨⟨⟨?_, ?_⟩, ?_⟩, ?_⟩ <;> rintro rfl <;> exact absurd h (by decide)

/-- What begins with a digit is read as a number. -/
theorem readValue_of_isDigit {c : Char} (h : c.isDigit = true) (cs : List Char) (depth : ℕ) :
    readValue (depth + 1) (c :: cs) = (readNumber (c :: cs)).map fun r => (.number r.1, r.2) := by
  have hskip : skipBlanks (c :: cs) = c :: cs := by simp [skipBlanks, isBlank_of_isDigit h]
  rw [readValue, hskip]
  split
  case h_7 => rfl
  -- the other notations begin with a letter, a mark or a bracket
  all_goals next heq => exact absurd heq (Decimal.ne_cons_of_isDigit h rfl _ _)

theorem isRead_ofNat (n : ℕ) : IsRead (.ofNat n) := by
  obtain ⟨c, ds, hds, hc⟩ := Decimal.exists_toDigits n
  have hwrite : writeValue (.ofNat n) = c :: ds := by rw [Value.ofNat, writeValue, hds]
  refine .of_cons hwrite (isBlank_of_isDigit hc) ?_ fun depth rest _ hrest => ?_
  · rintro rfl
    exact absurd hc (by decide)
  · have hread : readNumber (c :: (ds ++ rest)) = some (c :: ds, rest) := by
      rw [← List.cons_append, ← hds]
      exact readNumber_toDigits n hrest
    rw [readValue_of_isDigit hc, hread, Value.ofNat, hds]
    rfl

/-! ### Strings -/

/-- A piece that is read back: what stands for itself is neither the closing mark nor a backslash,
and the letter behind a backslash has a meaning. -/
def Piece.IsSpelt : Piece → Prop
  | .literal c => c ≠ '"' ∧ c ≠ '\\'
  | .escape l => (escaped? l).isSome = true
  | .unit _ => True

theorem Piece.isSpelt_ofChar (c : Char) : (ofChar c).IsSpelt := by
  unfold ofChar
  iterate 7
    split
    · rfl
  split
  · trivial
  · exact ⟨‹_›, ‹_›⟩

theorem Piece.isSpelt_of_mem_ofText {s : String} : ∀ p ∈ ofText s, p.IsSpelt := by
  intro p hp
  obtain ⟨c, -, rfl⟩ := List.mem_map.1 hp
  exact isSpelt_ofChar c

theorem hexValue?_getD {n : ℕ} (h : n < 16) :
    hexValue? ("0123456789abcdef".toList.getD n '0') = some n := by
  revert n
  decide

/-- The digits of a unit are four, and spell it. -/
theorem exists_unitDigits (u : UInt16) :
    ∃ a b c d, unitDigits u = [a, b, c, d] ∧ unit? a b c d = some u := by
  refine ⟨_, _, _, _, rfl, ?_⟩
  have hdigit : ∀ i, hexValue? ("0123456789abcdef".toList.getD (u.toNat >>> (4 * i) % 16) '0') =
      some (u.toNat >>> (4 * i) % 16) := fun i => hexValue?_getD (Nat.mod_lt _ (by decide))
  have hsum : 16 * (16 * (16 * (u.toNat >>> (4 * 3) % 16) + u.toNat >>> (4 * 2) % 16) +
      u.toNat >>> (4 * 1) % 16) + u.toNat >>> (4 * 0) % 16 = u.toNat := by
    have hlt := u.toNat_lt
    simp only [Nat.shiftRight_eq_div_pow]
    omega
  simp only [unit?, hdigit 0, hdigit 1, hdigit 2, hdigit 3, Option.bind_eq_bind, Option.bind_some,
    hsum, UInt16.ofNat_toNat]
  rfl

theorem readPieces_writePiece {p : Piece} (h : p.IsSpelt) (rest : List Char) :
    readPieces (writePiece p ++ rest) = (readPieces rest).map fun r => (p :: r.1, r.2) := by
  cases p with
  | literal c =>
    obtain ⟨hmark, hslash⟩ := h
    rw [writePiece, List.singleton_append, readPieces, if_neg hslash]
    · exact hmark
    · exact fun _ _ _ _ _ hc => absurd hc hslash
    · exact fun _ _ hc => absurd hc hslash
  | escape l =>
    have hl : (Piece.escaped? l).isSome = true := h
    rw [writePiece, List.cons_append, List.singleton_append, readPieces, if_pos hl]
    rintro a b c d cs rfl
    cases hl
  | unit u =>
    obtain ⟨a, b, c, d, hdigits, hunit⟩ := exists_unitDigits u
    simp only [writePiece, hdigits, List.cons_append, List.nil_append]
    rw [readPieces, hunit]

theorem readPieces_written {ps : List Piece} (h : ∀ p ∈ ps, p.IsSpelt) (rest : List Char) :
    readPieces (ps.flatMap writePiece ++ '"' :: rest) = some (ps, rest) := by
  induction ps with
  | nil => rfl
  | cons p ps ih =>
    rw [List.flatMap_cons, List.append_assoc, readPieces_writePiece (h p List.mem_cons_self),
      ih fun q hq => h q (List.mem_cons_of_mem p hq)]
    rfl

theorem writePieces_append (ps : List Piece) (rest : List Char) :
    writePieces ps ++ rest = '"' :: (ps.flatMap writePiece ++ '"' :: rest) := by
  simp [writePieces]

theorem isRead_string {ps : List Piece} (h : ∀ p ∈ ps, p.IsSpelt) : IsRead (.string ps) := by
  have hwrite : writeValue (.string ps) = '"' :: (ps.flatMap writePiece ++ ['"']) := by
    rw [writeValue, writePieces, List.cons_append]
  refine .of_cons hwrite (by decide) (by decide) fun depth rest _ _ => ?_
  have hskip : ∀ cs, skipBlanks ('"' :: cs) = '"' :: cs := fun _ => rfl
  rw [List.append_assoc, List.singleton_append, readValue, hskip]
  simp only [readPieces_written h]
  rfl

theorem isRead_ofText (s : String) : IsRead (.ofText s) :=
  isRead_string Piece.isSpelt_of_mem_ofText

/-! ### Arrays -/

theorem skipBlanks_of_follows {rest : List Char} (h : Follows rest) : skipBlanks rest = rest := by
  cases rest with
  | nil => rfl
  | cons c rest => rcases h c rfl with rfl | rfl | rfl <;> rfl

theorem follows_writeElements (vs : List Value) (rest : List Char) :
    Follows (writeElements vs ++ rest) := by
  cases vs with
  | nil => simp [writeElements, Follows]
  | cons v vs => simp [writeElements, Follows]

/-- The elements are read one by one; there are no more of them than characters. -/
theorem readElements_written {item : Reader Value} {vs : List Value} {v : Value} {fuel : ℕ}
    (hitem : ∀ w ∈ v :: vs, ∀ rest, Follows rest → item (writeValue w ++ rest) = some (w, rest))
    (hfuel : vs.length < fuel) (rest : List Char) :
    readElements item fuel (writeValue v ++ (writeElements vs ++ rest)) = some (v :: vs, rest) := by
  induction vs generalizing v fuel with
  | nil =>
    obtain ⟨fuel, rfl⟩ := Nat.exists_eq_succ_of_ne_zero (Nat.ne_zero_of_lt hfuel)
    have hread := hitem v List.mem_cons_self _ (follows_writeElements [] rest)
    simp only [readElements, hread, Option.bind_eq_bind, Option.bind_some,
      skipBlanks_of_follows (follows_writeElements [] rest)]
    simp [writeElements]
  | cons w vs ih =>
    obtain ⟨fuel, rfl⟩ := Nat.exists_eq_succ_of_ne_zero (Nat.ne_zero_of_lt hfuel)
    have hread := hitem v List.mem_cons_self _ (follows_writeElements (w :: vs) rest)
    have hrest := ih (fun x hx => hitem x (List.mem_cons_of_mem v hx))
      (Nat.lt_of_succ_lt_succ hfuel)
    simp only [readElements, hread, Option.bind_eq_bind, Option.bind_some,
      skipBlanks_of_follows (follows_writeElements (w :: vs) rest)]
    simp [writeElements, hrest]

theorem length_le_writeElements (vs : List Value) : vs.length < (writeElements vs).length := by
  induction vs with
  | nil => simp [writeElements]
  | cons v vs ih =>
    simp only [writeElements, List.length_cons, List.length_append, List.cons_append]
    omega

theorem length_writeValue_lt {v : Value} {vs : List Value} (h : v ∈ vs) :
    (writeValue v).length < (writeElements vs).length := by
  induction vs with
  | nil => cases h
  | cons w vs ih =>
    simp only [writeElements, List.length_cons, List.length_append, List.cons_append]
    rcases List.mem_cons.1 h with rfl | h
    · omega
    · have := ih h
      omega

/-- What stands behind an opening bracket, unless it is the closing one, is read as elements. -/
theorem readValue_array {c : Char} (hblank : isBlank c = false) (hend : c ≠ ']') (cs : List Char)
    (depth : ℕ) : readValue (depth + 1) ('[' :: c :: cs) =
      (readElements (readValue depth) (c :: cs).length (c :: cs)).map
        fun r => (.array r.1, r.2) := by
  have hopen : skipBlanks ('[' :: c :: cs) = '[' :: c :: cs := rfl
  have hskip : skipBlanks (c :: cs) = c :: cs := by simp [skipBlanks, hblank]
  rw [readValue, hopen]
  simp only [hskip]
  split
  · next heq => exact absurd (List.cons.inj heq).1 hend
  · rfl

theorem isRead_cons {v : Value} {vs : List Value} (h : ∀ w ∈ v :: vs, IsRead w) :
    IsRead (.array (v :: vs)) := by
  have hwrite : writeValue (.array (v :: vs)) = '[' :: (writeValue v ++ writeElements vs) := by
    rw [writeValue, List.cons_append]
  refine .of_cons hwrite (by decide) (by decide) fun depth rest hdepth hrest => ?_
  -- each element has fewer characters than the array, so the levels left are enough for it
  have hitem : ∀ w ∈ v :: vs, ∀ rest, Follows rest →
      readValue depth (writeValue w ++ rest) = some (w, rest) := by
    intro w hw rest hrest
    refine (h w hw).reads depth rest ?_ hrest
    rw [List.length_append] at hdepth
    rcases List.mem_cons.1 hw with rfl | hw
    · omega
    · have := length_writeValue_lt hw
      omega
  have hfuel : vs.length < (writeValue v ++ (writeElements vs ++ rest)).length := by
    have := length_le_writeElements vs
    simp only [List.length_append]
    omega
  have hread := readElements_written hitem hfuel rest
  obtain ⟨c, cs, hc, hblank, hend⟩ := (h v List.mem_cons_self).starts
  rw [List.append_assoc]
  rw [hc, List.cons_append] at hread ⊢
  rw [readValue_array hblank hend, hread]
  rfl

theorem isRead_nil : IsRead (.array []) := by
  have hwrite : writeValue (.array []) = ['[', ']'] := by rw [writeValue]
  exact .of_cons hwrite (by decide) (by decide) fun _ _ _ _ => rfl

/-- An array is read back if its elements are. -/
theorem isRead_array {vs : List Value} (h : ∀ v ∈ vs, IsRead v) : IsRead (.array vs) := by
  cases vs with
  | nil => exact isRead_nil
  | cons v vs => exact isRead_cons h

/-! ### Objects -/

theorem follows_writeMembers (ms : List (List Piece × Value)) (rest : List Char) :
    Follows (writeMembers ms ++ rest) := by
  cases ms with
  | nil => simp [writeMembers, Follows]
  | cons m ms => simp [writeMembers, Follows]

/-- A member, with a key that is read back and a value that `item` reads back. -/
theorem readMember_written {item : Reader Value} {key : List Piece} {v : Value}
    (hkey : ∀ p ∈ key, p.IsSpelt) {rest : List Char}
    (hitem : item (writeValue v ++ rest) = some (v, rest)) :
    readMember item (writePieces key ++ ':' :: (writeValue v ++ rest)) = some ((key, v), rest) := by
  have hmark : ∀ cs, skipBlanks ('"' :: cs) = '"' :: cs := fun _ => rfl
  have hcolon : ∀ cs, skipBlanks (':' :: cs) = ':' :: cs := fun _ => rfl
  rw [writePieces_append, readMember, hmark]
  simp only [readPieces_written hkey, Option.bind_eq_bind, Option.bind_some, hcolon, hitem]
  rfl

/-- The members are read one by one; there are no more of them than characters. -/
theorem readMembers_written {item : Reader Value} {m : List Piece × Value}
    {ms : List (List Piece × Value)} {fuel : ℕ} (hkeys : ∀ n ∈ m :: ms, ∀ p ∈ n.1, p.IsSpelt)
    (hitem : ∀ n ∈ m :: ms, ∀ rest, Follows rest →
      item (writeValue n.2 ++ rest) = some (n.2, rest))
    (hfuel : ms.length < fuel) (rest : List Char) :
    readMembers item fuel
        (writePieces m.1 ++ ':' :: (writeValue m.2 ++ (writeMembers ms ++ rest))) =
      some (m :: ms, rest) := by
  induction ms generalizing m fuel with
  | nil =>
    obtain ⟨fuel, rfl⟩ := Nat.exists_eq_succ_of_ne_zero (Nat.ne_zero_of_lt hfuel)
    have hread := readMember_written (hkeys m List.mem_cons_self)
      (hitem m List.mem_cons_self _ (follows_writeMembers [] rest))
    simp only [readMembers, hread, Option.bind_eq_bind, Option.bind_some,
      skipBlanks_of_follows (follows_writeMembers [] rest)]
    simp [writeMembers]
  | cons n ms ih =>
    obtain ⟨fuel, rfl⟩ := Nat.exists_eq_succ_of_ne_zero (Nat.ne_zero_of_lt hfuel)
    have hread := readMember_written (hkeys m List.mem_cons_self)
      (hitem m List.mem_cons_self _ (follows_writeMembers (n :: ms) rest))
    have hrest := ih (fun o ho => hkeys o (List.mem_cons_of_mem m ho))
      (fun o ho => hitem o (List.mem_cons_of_mem m ho)) (Nat.lt_of_succ_lt_succ hfuel)
    simp only [readMembers, hread, Option.bind_eq_bind, Option.bind_some,
      skipBlanks_of_follows (follows_writeMembers (n :: ms) rest)]
    simp [writeMembers, hrest]

theorem length_le_writeMembers (ms : List (List Piece × Value)) :
    ms.length < (writeMembers ms).length := by
  induction ms with
  | nil => simp [writeMembers]
  | cons m ms ih =>
    simp only [writeMembers, List.length_cons, List.length_append, List.cons_append]
    omega

theorem length_writeMember_lt {m : List Piece × Value} {ms : List (List Piece × Value)}
    (h : m ∈ ms) : (writeValue m.2).length < (writeMembers ms).length := by
  induction ms with
  | nil => cases h
  | cons n ms ih =>
    simp only [writeMembers, List.length_cons, List.length_append, List.cons_append]
    rcases List.mem_cons.1 h with rfl | h
    · omega
    · have := ih h
      omega

/-- What stands behind an opening brace, unless it is the closing one, is read as members. -/
theorem readValue_object (cs : List Char) (depth : ℕ) :
    readValue (depth + 1) ('\x7b' :: '"' :: cs) =
      (readMembers (readValue depth) ('"' :: cs).length ('"' :: cs)).map
        fun r => (.object r.1, r.2) := by
  have hopen : skipBlanks ('\x7b' :: '"' :: cs) = '\x7b' :: '"' :: cs := rfl
  have hskip : skipBlanks ('"' :: cs) = '"' :: cs := rfl
  rw [readValue, hopen]
  simp only [hskip]
  rfl

/-- An object is read back if its keys and its values are. -/
theorem isRead_object {m : List Piece × Value} {ms : List (List Piece × Value)}
    (hkeys : ∀ n ∈ m :: ms, ∀ p ∈ n.1, p.IsSpelt) (h : ∀ n ∈ m :: ms, IsRead n.2) :
    IsRead (.object (m :: ms)) := by
  have hwrite : writeValue (.object (m :: ms)) =
      '\x7b' :: (writePieces m.1 ++ ':' :: (writeValue m.2 ++ writeMembers ms)) := by
    rw [writeValue]
    simp
  refine .of_cons hwrite (by decide) (by decide) fun depth rest hdepth hrest => ?_
  -- each value has fewer characters than the object, so the levels left are enough for it
  have hitem : ∀ n ∈ m :: ms, ∀ rest, Follows rest →
      readValue depth (writeValue n.2 ++ rest) = some (n.2, rest) := by
    intro n hn rest hrest
    refine (h n hn).reads depth rest ?_ hrest
    rw [List.length_append, List.length_cons, List.length_append] at hdepth
    rcases List.mem_cons.1 hn with rfl | hn
    · omega
    · have := length_writeMember_lt hn
      omega
  have hfuel : ms.length <
      (writePieces m.1 ++ ':' :: (writeValue m.2 ++ (writeMembers ms ++ rest))).length := by
    have := length_le_writeMembers ms
    simp only [List.length_append, List.length_cons]
    omega
  have hread := readMembers_written hkeys hitem hfuel rest
  rw [List.append_assoc, List.cons_append, List.append_assoc]
  rw [writePieces_append] at hread ⊢
  rw [readValue_object, hread]
  rfl

/-! ### Documents -/

theorem parse?_writeValue {v : Value} (h : IsRead v) : parse? (writeValue v) = some v := by
  have hread := h.reads ((writeValue v).length + 1) [] (Nat.le_succ _) (by simp [Follows])
  rw [List.append_nil] at hread
  simp [parse?, hread, skipBlanks]

end Json

end LedgerKit
