import LedgerKit.Json.Value

/-!
# Reading values
-/

namespace LedgerKit.Json

/-- A reader takes something off the front of a text, if it is there. -/
abbrev Reader (α : Type) := List Char → Option (α × List Char)

/-- The white space between the parts of a value. -/
def isBlank (c : Char) : Bool := c == ' ' || c == '\t' || c == '\n' || c == '\r'

/-- Passes over white space. -/
def skipBlanks (cs : List Char) : List Char := cs.dropWhile isBlank

/-- The value of a hexadecimal digit of either case. -/
def hexValue? (c : Char) : Option Nat :=
  let n := c.toNat
  if 48 ≤ n ∧ n ≤ 57 then some (n - 48)
  else if 97 ≤ n ∧ n ≤ 102 then some (n - 87)
  else if 65 ≤ n ∧ n ≤ 70 then some (n - 55)
  else none

/-- The unit that four digits spell. -/
def unit? (a b c d : Char) : Option UInt16 := do
  return UInt16.ofNat
    (16 * (16 * (16 * (← hexValue? a) + (← hexValue? b)) + (← hexValue? c)) + (← hexValue? d))

/-- Reads the pieces of a string and its closing mark. -/
def readPieces : Reader (List Piece)
  | [] => none
  | '"' :: cs => some ([], cs)
  | '\\' :: 'u' :: a :: b :: c :: d :: cs =>
    match unit? a b c d with
    | some u => (readPieces cs).map fun r => (.unit u :: r.1, r.2)
    | none => none
  | '\\' :: l :: cs =>
    if (Piece.escaped? l).isSome then (readPieces cs).map fun r => (.escape l :: r.1, r.2) else none
  | c :: cs =>
    if c = '\\' then none else (readPieces cs).map fun r => (.literal c :: r.1, r.2)

/-- Reads digits, of which there must be one. -/
def readDigits : Reader (List Char) := fun cs =>
  let ds := cs.takeWhile Char.isDigit
  if ds.isEmpty then none else some (ds, cs.dropWhile Char.isDigit)

/-- Reads the part of a number before a point: one zero, or digits that begin with another. -/
def readWhole : Reader (List Char)
  | '0' :: cs => if cs.head?.any Char.isDigit then none else some (['0'], cs)
  | cs => readDigits cs

/-- Reads the fraction of a number, if there is one. -/
def readFraction : Reader (List Char)
  | '.' :: cs => (readDigits cs).map fun r => ('.' :: r.1, r.2)
  | cs => some ([], cs)

/-- Reads a sign, if there is one. -/
def readSign : List Char → List Char × List Char
  | '+' :: cs => (['+'], cs)
  | '-' :: cs => (['-'], cs)
  | cs => ([], cs)

/-- Reads the exponent of a number, if there is one. -/
def readExponent : Reader (List Char)
  | [] => some ([], [])
  | c :: cs =>
    if c = 'e' || c = 'E' then
      let (sign, cs) := readSign cs
      (readDigits cs).map fun r => (c :: sign ++ r.1, r.2)
    else some ([], c :: cs)

/-- Reads a number without a minus sign. -/
def readUnsigned : Reader (List Char) := fun cs => do
  let (whole, cs) ← readWhole cs
  let (fraction, cs) ← readFraction cs
  let (exponent, cs) ← readExponent cs
  return (whole ++ fraction ++ exponent, cs)

/-- Reads a number. -/
def readNumber : Reader (List Char)
  | '-' :: cs => (readUnsigned cs).map fun r => ('-' :: r.1, r.2)
  | cs => readUnsigned cs

/-- Reads the elements of an array and its bracket, with at most `fuel` elements. -/
def readElements (item : Reader Value) : (fuel : Nat) → Reader (List Value)
  | 0, _ => none
  | fuel + 1, cs => do
    let (v, cs) ← item cs
    match skipBlanks cs with
    | ',' :: cs => (readElements item fuel cs).map fun r => (v :: r.1, r.2)
    | ']' :: cs => some ([v], cs)
    | _ => none

/-- Reads a key, a colon and a value. -/
def readMember (item : Reader Value) : Reader (List Piece × Value) := fun cs =>
  match skipBlanks cs with
  | '"' :: cs => do
    let (key, cs) ← readPieces cs
    match skipBlanks cs with
    | ':' :: cs => (item cs).map fun r => ((key, r.1), r.2)
    | _ => none
  | _ => none

/-- Reads the members of an object and its brace, with at most `fuel` members. -/
def readMembers (item : Reader Value) : (fuel : Nat) → Reader (List (List Piece × Value))
  | 0, _ => none
  | fuel + 1, cs => do
    let (m, cs) ← readMember item cs
    match skipBlanks cs with
    | ',' :: cs => (readMembers item fuel cs).map fun r => (m :: r.1, r.2)
    | '}' :: cs => some ([m], cs)
    | _ => none

/-- Reads a value of at most `depth` levels, with white space before it. -/
def readValue : (depth : Nat) → Reader Value
  | 0, _ => none
  | depth + 1, cs =>
    match skipBlanks cs with
    | 'n' :: 'u' :: 'l' :: 'l' :: cs => some (.null, cs)
    | 't' :: 'r' :: 'u' :: 'e' :: cs => some (.boolean true, cs)
    | 'f' :: 'a' :: 'l' :: 's' :: 'e' :: cs => some (.boolean false, cs)
    | '"' :: cs => (readPieces cs).map fun r => (.string r.1, r.2)
    | '[' :: cs =>
      match skipBlanks cs with
      | ']' :: cs => some (.array [], cs)
      | cs => (readElements (readValue depth) cs.length cs).map fun r => (.array r.1, r.2)
    | '\x7b' :: cs =>
      match skipBlanks cs with
      | '}' :: cs => some (.object [], cs)
      | cs => (readMembers (readValue depth) cs.length cs).map fun r => (.object r.1, r.2)
    | cs => (readNumber cs).map fun r => (.number r.1, r.2)

/-- The value that a text is, with white space around it.  A value has no more levels than its text
has characters. -/
def parse? (cs : List Char) : Option Value :=
  match readValue (cs.length + 1) cs with
  | some (v, rest) => if (skipBlanks rest).isEmpty then some v else none
  | none => none

end LedgerKit.Json
