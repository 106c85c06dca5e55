import LedgerKit.Toml.Quoted

/-!
# Quoted strings, written

A string is written in the first of four notations that shows it without escapes, and with escapes
where none does.  A string with line ends is written over several lines.
-/

namespace LedgerKit.Toml

/-- A control character that no notation shows: any but the tabulator and the line feed. -/
def isHidden (c : Char) : Bool := (c.toNat < 0x20 && c != '\t' && c != '\n') || c.toNat == 0x7f

/-- Three marks stand in a row. -/
def hasTriple (mark : Char) : List Char → Bool
  | a :: b :: c :: cs => (a == mark && b == mark && c == mark) || hasTriple mark (b :: c :: cs)
  | _ => false

/-- The four digits of a character's number, in upper case. -/
def codeDigits (n : Nat) : List Char :=
  let digit (i : Nat) : Char := "0123456789ABCDEF".toList.getD (n >>> (4 * i) % 16) '0'
  [digit 3, digit 2, digit 1, digit 0]

/-- A character between quotation marks, the marks and line feeds apart. -/
def writeChar (c : Char) : List Char :=
  if c = '\x08' then ['\\', 'b']
  else if c = '\t' then ['\\', 't']
  else if c = '\x0c' then ['\\', 'f']
  else if c = '\r' then ['\\', 'r']
  else if c = '\\' then ['\\', '\\']
  else if isHidden c then '\\' :: 'u' :: codeDigits c.toNat
  else [c]

/-- A character between single quotation marks. -/
def writeShortChar (c : Char) : List Char :=
  if c = '\n' then ['\\', 'n'] else if c = '"' then ['\\', '"'] else writeChar c

/-- A string between triple quotation marks: every third mark in a row is escaped, of which `run`
have been written. -/
def writeLong : (run : Nat) → List Char → List Char
  | _, [] => []
  | run, c :: cs =>
    if c = '"' then
      if run = 2 then '\\' :: '"' :: writeLong 0 cs else '"' :: writeLong (run + 1) cs
    else if c = '\n' then '\n' :: writeLong 0 cs
    else writeChar c ++ writeLong 0 cs

/-- A string between triple marks, on a line of its own if it has several. -/
def betweenTriples (mark : Char) (hasNewline : Bool) (inner : List Char) : List Char :=
  mark :: mark :: mark :: (if hasNewline then ['\n'] else []) ++ inner ++ [mark, mark, mark]

/-- A string in the notation that suits it. -/
def writeString (cs : List Char) : List Char :=
  let hidden := cs.any isHidden
  let newline := cs.contains '\n'
  let backslash := cs.contains '\\'
  if !hidden && !newline && !backslash && !cs.contains '"' then
    '"' :: cs.flatMap writeShortChar ++ ['"']
  else if !hidden && !newline && !cs.contains '\'' then '\'' :: cs ++ ['\'']
  else if !hidden && !backslash && !hasTriple '"' cs then
    betweenTriples '"' newline (writeLong 0 cs)
  else if !hidden && !hasTriple '\'' cs then betweenTriples '\'' newline cs
  else if newline then betweenTriples '"' true (writeLong 0 cs)
  else '"' :: cs.flatMap writeShortChar ++ ['"']

end LedgerKit.Toml
