import LedgerKit.Bytes.Basic

/-!
# Values of an interchange format

A JSON value, with its strings and numbers as they are spelt: a string may spell halves of a
surrogate pair, which no text holds but a byte string can, and how a number is spelt decides whether
it is an integer.  `Piece.ofText` spells a text and `Piece.text?` is what a spelling means;
`text?_ofText` says that they agree.
-/

namespace LedgerKit.Json

/-- A part of the spelling of a string. -/
inductive Piece where
  /-- A character that stands for itself. -/
  | literal (c : Char)
  /-- A backslash and a letter. -/
  | escape (letter : Char)
  /-- A backslash, a `u` and four digits. -/
  | unit (code : UInt16)
deriving DecidableEq, Repr

/-- A value. -/
inductive Value where
  | null
  | boolean (b : Bool)
  | number (spelling : List Char)
  | string (pieces : List Piece)
  | array (elements : List Value)
  | object (members : List (List Piece × Value))
deriving Repr

namespace Piece

/-- The character that a letter after a backslash stands for. -/
def escaped? : Char → Option Char
  | '"' => some '"'
  | '\\' => some '\\'
  | '/' => some '/'
  | 'b' => some '\x08'
  | 'f' => some '\x0c'
  | 'n' => some '\n'
  | 'r' => some '\r'
  | 't' => some '\t'
  | _ => none

/-- A control character, which must not stand for itself. -/
def isControl (c : Char) : Bool := c.toNat < 0x20

/-- The spelling of a character: as itself unless it is a mark, a backslash or a control. -/
def ofChar (c : Char) : Piece :=
  if c = '"' then .escape '"'
  else if c = '\\' then .escape '\\'
  else if c = '\x08' then .escape 'b'
  else if c = '\x0c' then .escape 'f'
  else if c = '\n' then .escape 'n'
  else if c = '\r' then .escape 'r'
  else if c = '\t' then .escape 't'
  else if isControl c then .unit (UInt16.ofNat c.toNat)
  else .literal c

/-- The spelling of a text. -/
def ofText (s : String) : List Piece := s.toList.map ofChar

/-- The first half of a surrogate pair. -/
def isHigh (u : UInt16) : Bool := 0xd800 ≤ u && u ≤ 0xdbff

/-- The second half of a surrogate pair. -/
def isLow (u : UInt16) : Bool := 0xdc00 ≤ u && u ≤ 0xdfff

/-- The character that a surrogate pair spells. -/
def ofPair (high low : UInt16) : Char :=
  Char.ofNat ((high.toNat - 0xd800) * 0x400 + (low.toNat - 0xdc00) + 0x10000)

/-- The characters of a spelling; controls and halves of pairs have none. -/
def chars? : List Piece → Option (List Char)
  | [] => some []
  | .literal c :: ps => if isControl c then none else (chars? ps).map (c :: ·)
  | .escape l :: ps =>
    match escaped? l with
    | some c => (chars? ps).map (c :: ·)
    | none => none
  | .unit high :: .unit low :: ps =>
    if isHigh high then
      if isLow low then (chars? ps).map (ofPair high low :: ·) else none
    else if isLow high then none
    else (chars? (.unit low :: ps)).map (Char.ofNat high.toNat :: ·)
  | .unit u :: ps =>
    if isHigh u || isLow u then none else (chars? ps).map (Char.ofNat u.toNat :: ·)

/-- The text of a spelling. -/
def text? (ps : List Piece) : Option String := (chars? ps).map String.ofList

/-- The three bytes in which half of a surrogate pair is written. -/
def halfBytes (u : UInt16) : Bytes :=
  let n := u.toNat
  [UInt8.ofNat (0xe0 + n / 0x1000), UInt8.ofNat (0x80 + n / 0x40 % 0x40),
    UInt8.ofNat (0x80 + n % 0x40)]

/-- The bytes of a unit on its own. -/
def unitBytes (u : UInt16) : Bytes :=
  if isHigh u || isLow u then halfBytes u else String.utf8EncodeChar (Char.ofNat u.toNat)

/-- The bytes of a spelling, which is then a string of bytes: controls stand for themselves, and a
half of a pair has three bytes. -/
def bytes : List Piece → Bytes
  | [] => []
  | .literal c :: ps => String.utf8EncodeChar c ++ bytes ps
  | .escape l :: ps => String.utf8EncodeChar ((escaped? l).getD l) ++ bytes ps
  | .unit high :: .unit low :: ps =>
    if isHigh high && isLow low then String.utf8EncodeChar (ofPair high low) ++ bytes ps
    else unitBytes high ++ bytes (.unit low :: ps)
  | .unit u :: ps => unitBytes u ++ bytes ps

/-- A spelling that may be passed over: it holds no bare control. -/
def arePassable (ps : List Piece) : Bool :=
  ps.all fun
    | .literal c => !isControl c
    | _ => true

theorem ofNat_toNat_of_isControl {c : Char} (h : isControl c = true) :
    Char.ofNat (UInt16.ofNat c.toNat).toNat = c ∧ isHigh (UInt16.ofNat c.toNat) = false
      ∧ isLow (UInt16.ofNat c.toNat) = false := by
  simp only [isControl, decide_eq_true_eq] at h
  have hn : (UInt16.ofNat c.toNat).toNat = c.toNat := by
    simp only [UInt16.toNat_ofNat']
    omega
  refine ⟨by rw [hn, Char.ofNat_toNat], ?_, ?_⟩ <;>
  · simp only [isHigh, isLow, Bool.and_eq_false_iff, decide_eq_false_iff_not,
      UInt16.le_iff_toNat_le, hn]
    left
    simp
    omega

theorem chars?_ofChar (c : Char) (ps : List Piece) :
    chars? (ofChar c :: ps) = (chars? ps).map (c :: ·) := by
  simp only [ofChar]
  split
  · simp_all [chars?, escaped?]
  split
  · simp_all [chars?, escaped?]
  split
  · simp_all [chars?, escaped?]
  split
  · simp_all [chars?, escaped?]
  split
  · simp_all [chars?, escaped?]
  split
  · simp_all [chars?, escaped?]
  split
  · simp_all [chars?, escaped?]
  split
  · next h =>
    obtain ⟨hc, hh, hl⟩ := ofNat_toNat_of_isControl h
    generalize UInt16.ofNat c.toNat = u at hc hh hl ⊢
    cases ps with
    | nil => simp [chars?, hc, hh, hl]
    | cons p ps => cases p <;> simp [chars?, hc, hh, hl]
  · simp_all [chars?]

theorem chars?_map_ofChar (cs : List Char) : chars? (cs.map ofChar) = some cs := by
  induction cs with
  | nil => rfl
  | cons c cs ih => rw [List.map_cons, chars?_ofChar, ih]; rfl

theorem text?_ofText (s : String) : text? (ofText s) = some s := by
  simp [text?, ofText, chars?_map_ofChar]

end Piece

mutual

/-- A value that may be passed over: none of its strings holds a bare control. -/
def Value.isPassable : Value → Bool
  | .string ps => Piece.arePassable ps
  | .array vs => Value.arePassable vs
  | .object ms => Value.memberPassable ms
  | _ => true

/-- The same for all elements of an array. -/
def Value.arePassable : List Value → Bool
  | [] => true
  | v :: vs => v.isPassable && Value.arePassable vs

/-- The same for all members of an object. -/
def Value.memberPassable : List (List Piece × Value) → Bool
  | [] => true
  | (key, v) :: ms => Piece.arePassable key && v.isPassable && Value.memberPassable ms

end

end LedgerKit.Json
