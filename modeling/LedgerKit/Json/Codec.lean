import LedgerKit.Json.Printer
import LedgerKit.Json.Reader
import LedgerKit.Text.Decimal

/-!
# Types with a JSON form

A type with a `Codec` is written as a value and read from one.  A record is written as an object
with its fields in order; it is read from such an object, in which fields may stand in any order and
unknown ones are passed over, or from an array of its fields in order, of which the last may be
missing.
-/

namespace LedgerKit.Json

/-- A type whose values are written as JSON and read from it. -/
class Codec (α : Type) where
  /-- The value that is written. -/
  toValue : α → Value
  /-- What a value is read as. -/
  ofValue? : Value → Option α

/-- The compact text of a value of the type. -/
def encode {α : Type} [Codec α] (a : α) : String := String.ofList (writeValue (Codec.toValue a))

/-- Reads a text as a value of the type. -/
def decode? {α : Type} [Codec α] (text : String) : Option α :=
  (parse? text.toList).bind Codec.ofValue?

namespace Value

/-- A text as a value. -/
def ofText (s : String) : Value := .string (Piece.ofText s)

/-- The text that a value is. -/
def text? : Value → Option String
  | .string ps => Piece.text? ps
  | _ => none

/-- A natural number as a value. -/
def ofNat (n : Nat) : Value := .number (Nat.toDigits 10 n)

/-- The natural number that a value is: digits alone, without a sign, a point or an exponent. -/
def nat? : Value → Option Nat
  | .number spelling => Decimal.ofChars? spelling
  | _ => none

/-- The number of 64 bits that a value is. -/
def uint64? (v : Value) : Option UInt64 := do
  let n ← v.nat?
  if n < UInt64.size then some (UInt64.ofNat n) else none

/-- The byte that a value is. -/
def byte? (v : Value) : Option UInt8 := do
  let n ← v.nat?
  if n < 256 then some (UInt8.ofNat n) else none

/-- Bytes as an array of numbers. -/
def ofBytes (bs : Bytes) : Value := .array (bs.map fun b => ofNat b.toNat)

/-- The bytes that an array of numbers is. -/
def bytes? : Value → Option Bytes
  | .array vs => vs.mapM byte?
  | _ => none

/-- A record as an object. -/
def ofFields (fields : List (String × Value)) : Value :=
  .object (fields.map fun f => (Piece.ofText f.1, f.2))

/-- The known fields among the members of an object, in addition to those found before.  A field
must not be there twice, and what belongs to an unknown one need only be well formed. -/
def knownFields? (names : List String) :
    (found : List (String × Value)) → List (List Piece × Value) → Option (List (String × Value))
  | found, [] => some found
  | found, (key, v) :: ms => do
    let name ← Piece.text? key
    if names.contains name then
      if (found.lookup name).isSome then none else knownFields? names ((name, v) :: found) ms
    else if v.isPassable then knownFields? names found ms
    else none

/-- The fields of a record. -/
def fields? (names : List String) : Value → Option (List (String × Value))
  | .object ms => knownFields? names [] ms
  | .array vs => if vs.length ≤ names.length then some (names.zip vs) else none
  | _ => none

end Value

/-- A field that must be there. -/
def field? {α : Type} (fields : List (String × Value)) (name : String) (read : Value → Option α) :
    Option α :=
  (fields.lookup name).bind read

/-- A field with a default. -/
def fieldOr? {α : Type} (fields : List (String × Value)) (name : String) (default : α)
    (read : Value → Option α) : Option α :=
  match fields.lookup name with
  | some v => read v
  | none => some default

/-- What may be null, read by `read` unless it is. -/
def nullable? {α : Type} (read : Value → Option α) : Value → Option (Option α)
  | .null => some none
  | v => (read v).map some

end LedgerKit.Json
