import LedgerKit.Der.Encrypted
import LedgerKit.Key.Error
import LedgerKit.Pem.Section

/-!
# Private keys in text files

The lines between the markers of a section are the base-64 form of a document, which is the private
key itself or, under the other label, is to be decrypted.

Base 64 is read in the standard alphabet, padded with `=` to a multiple of four characters.  A text
has to be the one spelling of its bytes: the bits that padding leaves over are zero.
-/

namespace LedgerKit

/-! ### Base 64 -/

namespace Base64

/-- The six bits that a character stands for. -/
def sextet? (c : Char) : Option Nat :=
  let n := c.toNat
  if 65 ≤ n ∧ n ≤ 90 then some (n - 65)
  else if 97 ≤ n ∧ n ≤ 122 then some (n - 71)
  else if 48 ≤ n ∧ n ≤ 57 then some (n + 4)
  else if n = 43 then some 62
  else if n = 47 then some 63
  else none

/-- Reads groups of four characters, of which the last may be padded. -/
def decode? : List Char → Option Bytes
  | [] => some []
  | [a, b, '=', '='] => do
    let n := 64 * (← sextet? a) + (← sextet? b)
    if n % 16 = 0 then some [UInt8.ofNat (n / 16)] else none
  | [a, b, c, '='] => do
    let n := 64 * (64 * (← sextet? a) + (← sextet? b)) + (← sextet? c)
    if n % 4 = 0 then some [UInt8.ofNat (n / 1024), UInt8.ofNat (n / 4)] else none
  | a :: b :: c :: d :: rest => do
    let n := 64 * (64 * (64 * (← sextet? a) + (← sextet? b)) + (← sextet? c)) + (← sextet? d)
    return UInt8.ofNat (n / 65536) :: UInt8.ofNat (n / 256) :: UInt8.ofNat n :: (← decode? rest)
  | _ => none

end Base64

namespace Pem

/-! ### Lines -/

/-- What follows a line end: a line feed, a carriage return, or both in the other order. -/
def afterLineEnd? : List Char → Option (List Char)
  | '\n' :: cs => some cs
  | '\r' :: '\n' :: cs => some cs
  | '\r' :: cs => some cs
  | _ => none

/-- What precedes a line end. -/
def beforeLineEnd? (cs : List Char) : Option (List Char) :=
  match cs.reverse with
  | '\n' :: '\r' :: before => some before.reverse
  | '\n' :: before => some before.reverse
  | '\r' :: before => some before.reverse
  | _ => none

/-- The most characters on a line. -/
def lineWidth : Nat := 64

/-- A text without a line end after it. -/
def dropLineEnd (cs : List Char) : List Char := (beforeLineEnd? cs).getD cs

/-- A line end and nothing before it. -/
def isEmptyLine (cs : List Char) : Bool := beforeLineEnd? cs == some []

/-- A line that ends with padding, after which no other may follow, not even an empty one. -/
def isPadded (line : List Char) : Bool := line.getLast? == some '='

/-- Joins lines that all have the full width, except the last.  There are at most `fuel` of them
before it, and a line end after it is dropped. -/
def joinAtMost? : (fuel : Nat) → List Char → Option (List Char)
  | 0, cs => if cs.length ≤ lineWidth then some (dropLineEnd cs) else none
  | fuel + 1, cs =>
    if cs.length ≤ lineWidth then some (dropLineEnd cs)
    else
      let line := cs.take lineWidth
      match afterLineEnd? (cs.drop lineWidth) with
      | some rest =>
        if isPadded line && isEmptyLine rest then none
        else (joinAtMost? fuel rest).map (line ++ ·)
      | none => none

/-- Joins the lines of a text. -/
def joinLines? (cs : List Char) : Option (List Char) := joinAtMost? cs.length cs

/-! ### Documents -/

namespace Section

/-- The bytes that a section holds, which must be one sequence. -/
def content? (s : Section) : Option Bytes := do
  let afterMarker ← Text.afterFront? dashes s.inner
  let lines ← beforeLineEnd? (← afterLineEnd? afterMarker)
  let bs ← Base64.decode? (← joinLines? lines)
  if Der.isSequence bs then some bs else none

end Section

/-- The document of the first private key in a text, decrypted if it has to be.  The password
matters only then. -/
def readPrivateKey (text : String) (password? : Option String) : Except KeyError Bytes :=
  match firstKey? text.toList with
  | none => .error .noPrivateKeySection
  | some (label, s) =>
    match s.content? with
    | none => .error .malformedDocument
    | some content =>
      match label, password? with
      | .plain, _ => .ok content
      | .encrypted, none => .error .passwordNeeded
      | .encrypted, some password =>
        match (Der.Encrypted.ofBytes? content).bind (·.decrypt? (Text.utf8 password)) with
        | some document => .ok document
        | none => .error .malformedDocument

end Pem

end LedgerKit
