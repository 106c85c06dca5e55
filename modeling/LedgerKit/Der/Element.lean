import LedgerKit.Bytes.Basic

/-!
# Elements of a binary document

A document in the distinguished encoding rules is built of elements: a tag byte, a length and so
many bytes of content.  Lengths have one spelling only.  `parse?` cuts bytes into the elements that
they are made of, so a sequence is read by matching the list of its elements, and nothing that
follows or stands between is overlooked.
-/

namespace LedgerKit.Der

/-- A tag and what it holds. -/
structure Element where
  /-- The tag byte: class, form and number. -/
  tag : UInt8
  /-- The bytes inside. -/
  content : Bytes
deriving DecidableEq, Repr

/-- The tag of a non-negative or negative number. -/
def integerTag : UInt8 := 0x02

/-- The tag of a string of bits. -/
def bitsTag : UInt8 := 0x03

/-- The tag of a string of bytes. -/
def bytesTag : UInt8 := 0x04

/-- The tag of the empty value. -/
def nullTag : UInt8 := 0x05

/-- The tag of an object identifier. -/
def objectTag : UInt8 := 0x06

/-- The tag of a sequence. -/
def sequenceTag : UInt8 := 0x30

/-- The tags that may occur: some universal ones, and those of the other classes whose number fits
the tag byte. -/
def isTag (t : UInt8) : Bool :=
  let n := t.toNat
  if n < 0x40 then
    (1 ≤ n && n ≤ 6) || n == 9 || n == 0xa || n == 0xc || (0x12 ≤ n && n ≤ 0x18) || n == 0x1a
      || n == 0x1e || n == 0x30 || n == 0x31
  else n % 32 != 31

/-- Reads a length, in the fewest bytes. -/
def readLength? : Bytes → Option (Nat × Bytes)
  | [] => none
  | b :: rest =>
    if b < 0x80 then some (b.toNat, rest)
    else
      let n := b.toNat - 0x80
      let value := Bytes.bigEndian (rest.take n)
      if 1 ≤ n ∧ n ≤ 4 ∧ n ≤ rest.length ∧ 0x80 ≤ value ∧ rest.head? ≠ some 0 then
        some (value, rest.drop n)
      else none

/-- Reads one element and gives what follows it. -/
def readElement? : Bytes → Option (Element × Bytes)
  | [] => none
  | tag :: rest =>
    if isTag tag then
      match readLength? rest with
      | some (n, rest) =>
        if n ≤ rest.length then some (⟨tag, rest.take n⟩, rest.drop n) else none
      | none => none
    else none

/-- Reads at most `fuel` elements, which must be all there are. -/
def parseAtMost? : (fuel : Nat) → Bytes → Option (List Element)
  | _, [] => some []
  | 0, _ => none
  | fuel + 1, bs =>
    match readElement? bs with
    | some (e, rest) => (parseAtMost? fuel rest).map (e :: ·)
    | none => none

/-- The elements that make up some bytes.  An element has two bytes at least, so there are no more
elements than bytes. -/
def parse? (bs : Bytes) : Option (List Element) := parseAtMost? bs.length bs

namespace Element

/-- The elements of a sequence. -/
def sequence? (e : Element) : Option (List Element) :=
  if e.tag = sequenceTag then parse? e.content else none

/-- The content of an element with this tag. -/
def content? (tag : UInt8) (e : Element) : Option Bytes :=
  if e.tag = tag then some e.content else none

/-- Some bytes spell a non-negative number and need all of them: the first has no sign bit and, if
it is zero, the next has. -/
def isNumeral : Bytes → Bool
  | [] => false
  | [b] => b < 0x80
  | a :: b :: _ => a < 0x80 && (a != 0 || 0x80 ≤ b)

/-- A non-negative number below `limit`, in the fewest bytes. -/
def number? (limit : Nat) (e : Element) : Option Nat := do
  let bs ← e.content? integerTag
  let value := Bytes.bigEndian bs
  if isNumeral bs && value < limit then some value else none

/-- The element belongs to the context-specific class. -/
def isContext (e : Element) : Bool := e.tag &&& 0xc0 == 0x80

/-- The element is made of elements. -/
def isConstructed (e : Element) : Bool := e.tag &&& 0x20 != 0

/-- The number of the tag within its class. -/
def number (e : Element) : UInt8 := e.tag &&& 0x1f

end Element

/-- The elements of a document that is one sequence. -/
def document? (bs : Bytes) : Option (List Element) :=
  match parse? bs with
  | some [e] => e.sequence?
  | _ => none

/-- Some bytes are one sequence, whatever it holds. -/
def isSequence (bs : Bytes) : Bool :=
  match parse? bs with
  | some [e] => e.tag == sequenceTag
  | _ => false

end LedgerKit.Der
