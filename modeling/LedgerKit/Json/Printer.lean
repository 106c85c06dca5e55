import LedgerKit.Json.Value

/-!
# Writing values
-/

namespace LedgerKit.Json

/-- The four digits of a unit. -/
def unitDigits (u : UInt16) : List Char :=
  let digit (i : Nat) : Char := "0123456789abcdef".toList.getD (u.toNat >>> (4 * i) % 16) '0'
  [digit 3, digit 2, digit 1, digit 0]

/-- A piece of a string. -/
def writePiece : Piece → List Char
  | .literal c => [c]
  | .escape l => ['\\', l]
  | .unit u => '\\' :: 'u' :: unitDigits u

/-- A string. -/
def writePieces (ps : List Piece) : List Char := '"' :: ps.flatMap writePiece ++ ['"']

mutual

/-- A value, without white space. -/
def writeValue : Value → List Char
  | .null => "null".toList
  | .boolean true => "true".toList
  | .boolean false => "false".toList
  | .number spelling => spelling
  | .string ps => writePieces ps
  | .array [] => ['[', ']']
  | .array (v :: vs) => '[' :: writeValue v ++ writeElements vs
  | .object [] => ['\x7b', '}']
  | .object ((key, v) :: ms) =>
    '\x7b' :: writePieces key ++ ':' :: writeValue v ++ writeMembers ms

/-- The elements of an array after the first, and its bracket. -/
def writeElements : List Value → List Char
  | [] => [']']
  | v :: vs => ',' :: writeValue v ++ writeElements vs

/-- The members of an object after the first, and its brace. -/
def writeMembers : List (List Piece × Value) → List Char
  | [] => ['}']
  | (key, v) :: ms => ',' :: writePieces key ++ ':' :: writeValue v ++ writeMembers ms

end

end LedgerKit.Json
