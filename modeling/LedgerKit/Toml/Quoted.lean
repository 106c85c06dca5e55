import LedgerKit.Toml.Space

/-!
# Quoted strings, read

Four notations: between one or three quotation marks, with escapes, and between one or three
apostrophes, without.  The long notations may hold line ends, which are read as line feeds, and a
line end right after the opening marks does not count.
-/

namespace LedgerKit.Toml

/-- The value of a hexadecimal digit of either case. -/
def hexValue? (c : Char) : Option Nat :=
  let n := c.toNat
  if 48 ≤ n ∧ n ≤ 57 then some (n - 48)
  else if 97 ≤ n ∧ n ≤ 102 then some (n - 87)
  else if 65 ≤ n ∧ n ≤ 70 then some (n - 55)
  else none

/-- The character with a number, unless it is a surrogate or too large. -/
def charOfCode? (n : Nat) : Option Char := if n.isValidChar then some (Char.ofNat n) else none

/-- What a character after a backslash stands for. -/
def escaped? : Char → Option Char
  | 'b' => some '\x08'
  | 't' => some '\t'
  | 'n' => some '\n'
  | 'f' => some '\x0c'
  | 'r' => some '\r'
  | '"' => some '"'
  | '\\' => some '\\'
  | _ => none

/-- Where in a string with escapes the reader is. -/
inductive QuoteState where
  /-- Between characters. -/
  | text
  /-- After a backslash. -/
  | escape
  /-- With `left` digits of a character's number to come, and those read so far in `code`. -/
  | code (left code : Nat)
  /-- After a backslash and blanks, before the line end that must follow. -/
  | gap
  /-- After a backslash at the end of a line: blanks and line ends do not count. -/
  | folded
deriving DecidableEq, Repr

/-- The state after a backslash and the letter `u` or `U`. -/
def codeLength? : Char → Option Nat
  | 'u' => some 4
  | 'U' => some 8
  | _ => none

/-- Reads a string on one line up to the closing mark. -/
def readShort : QuoteState → Reader (List Char)
  | .text, '"' :: cs => some ([], cs)
  | .text, '\\' :: cs => readShort .escape cs
  | .text, c :: cs =>
    if isTextChar c then (readShort .text cs).map fun r => (c :: r.1, r.2) else none
  | .escape, c :: cs =>
    match escaped? c, codeLength? c with
    | some d, _ => (readShort .text cs).map fun r => (d :: r.1, r.2)
    | none, some n => readShort (.code n 0) cs
    | none, none => none
  | .code left code, c :: cs =>
    match hexValue? c with
    | none => none
    | some v =>
      if 1 < left then readShort (.code (left - 1) (16 * code + v)) cs
      else
        match charOfCode? (16 * code + v) with
        | some d => (readShort .text cs).map fun r => (d :: r.1, r.2)
        | none => none
  | _, _ => none

/-- Closes a long string whose marks are `mark`: of up to five in a row, the last three close it and
those before them belong to it.  The first three have been read. -/
def closeLong (mark : Char) : List Char → List Char × List Char
  | a :: b :: cs =>
    if a ≠ mark then ([], a :: b :: cs)
    else if b ≠ mark then ([mark], b :: cs)
    else ([mark, mark], cs)
  | [a] => if a = mark then ([mark], []) else ([], [a])
  | [] => ([], [])

/-- Reads a string over several lines up to the closing marks. -/
def readLong : QuoteState → Reader (List Char)
  | .text, '"' :: '"' :: '"' :: cs => some (closeLong '"' cs)
  | .folded, '"' :: '"' :: '"' :: cs => some (closeLong '"' cs)
  | .text, c :: cs =>
    if c = '\\' then readLong .escape cs
    else if c = '\r' then if cs.head? = some '\n' then readLong .text cs else none
    else if c = '\n' || isTextChar c then (readLong .text cs).map fun r => (c :: r.1, r.2)
    else none
  | .folded, c :: cs =>
    if c = '\\' then readLong .escape cs
    else if c = '\n' || isBlank c then readLong .folded cs
    else if c = '\r' then if cs.head? = some '\n' then readLong .folded cs else none
    else if isTextChar c then (readLong .text cs).map fun r => (c :: r.1, r.2)
    else none
  | .gap, c :: cs =>
    if isBlank c then readLong .gap cs
    else if c = '\n' then readLong .folded cs
    else if c = '\r' ∧ cs.head? = some '\n' then readLong .gap cs
    else none
  | .escape, c :: cs =>
    if isBlank c then readLong .gap cs
    else if c = '\n' then readLong .folded cs
    else if c = '\r' ∧ cs.head? = some '\n' then readLong .gap cs
    else
      match escaped? c, codeLength? c with
      | some d, _ => (readLong .text cs).map fun r => (d :: r.1, r.2)
      | none, some n => readLong (.code n 0) cs
      | none, none => none
  | .code left code, c :: cs =>
    match hexValue? c with
    | none => none
    | some v =>
      if 1 < left then readLong (.code (left - 1) (16 * code + v)) cs
      else
        match charOfCode? (16 * code + v) with
        | some d => (readLong .text cs).map fun r => (d :: r.1, r.2)
        | none => none
  | _, [] => none

/-- Reads a literal string on one line up to the apostrophe. -/
def readShortLiteral : Reader (List Char)
  | '\'' :: cs => some ([], cs)
  | c :: cs => if isTextChar c then (readShortLiteral cs).map fun r => (c :: r.1, r.2) else none
  | [] => none

/-- Reads a literal string over several lines up to the apostrophes. -/
def readLongLiteral : Reader (List Char)
  | '\'' :: '\'' :: '\'' :: cs => some (closeLong '\'' cs)
  | c :: cs =>
    if c = '\r' then if cs.head? = some '\n' then readLongLiteral cs else none
    else if c = '\n' || isTextChar c then (readLongLiteral cs).map fun r => (c :: r.1, r.2)
    else none
  | [] => none

/-- The text without the line end that it may begin with. -/
def dropNewline (cs : List Char) : List Char := (afterNewline? cs).getD cs

/-- Reads a string in one of the four notations. -/
def readString : Reader String := fun cs =>
  let chars :=
    match cs with
    | '"' :: '"' :: '"' :: cs => readLong .text (dropNewline cs)
    | '"' :: cs => readShort .text cs
    | '\'' :: '\'' :: '\'' :: cs => readLongLiteral (dropNewline cs)
    | '\'' :: cs => readShortLiteral cs
    | _ => none
  chars.map fun r => (String.ofList r.1, r.2)

end LedgerKit.Toml
