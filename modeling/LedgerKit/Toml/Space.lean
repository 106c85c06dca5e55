/-!
# Blanks, line ends and comments
-/

namespace LedgerKit.Toml

/-- A reader takes a value off the front of a text, if one is there. -/
abbrev Reader (α : Type) := List Char → Option (α × List Char)

/-- The blanks within a line. -/
def isBlank (c : Char) : Bool := c == ' ' || c == '\t'

/-- The characters that strings and comments may hold: none of the controls but the tabulator. -/
def isTextChar (c : Char) : Bool := c == '\t' || (0x20 ≤ c.toNat && c.toNat != 0x7f)

/-- Passes over blanks. -/
def skipBlanks (cs : List Char) : List Char := cs.dropWhile isBlank

/-- What follows a line end: a line feed, or a carriage return and a line feed. -/
def afterNewline? : List Char → Option (List Char)
  | '\n' :: cs => some cs
  | '\r' :: '\n' :: cs => some cs
  | _ => none

/-- Passes over a comment, if one begins here. -/
def skipComment : List Char → List Char
  | '#' :: cs => cs.dropWhile isTextChar
  | cs => cs

/-- What follows the rest of a line, which may hold blanks and a comment. -/
def afterLine? (cs : List Char) : Option (List Char) :=
  match skipComment (skipBlanks cs) with
  | [] => some []
  | cs => afterNewline? cs

/-- Passes over blanks, line ends and comments; `inComment` tells that one has begun. -/
def skipLines : (inComment : Bool) → List Char → List Char
  | _, [] => []
  | _, '\n' :: cs => skipLines false cs
  | inComment, '\r' :: cs =>
    if cs.head? = some '\n' then skipLines inComment cs else '\r' :: cs
  | true, c :: cs => if isTextChar c then skipLines true cs else c :: cs
  | false, c :: cs =>
    if isBlank c then skipLines false cs else if c = '#' then skipLines true cs else c :: cs

end LedgerKit.Toml
