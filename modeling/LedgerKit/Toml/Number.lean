import LedgerKit.Toml.Quoted
import LedgerKit.Toml.Value

/-!
# Numbers, read

Integers of 64 bits, in decimal with or without a sign or in base 2, 8 or 16, and floats, of which
only those are refused that lie beyond the largest finite one.  Single underscores may stand between
digits.
-/

namespace LedgerKit.Toml

/-- The digits of the longest run of digits, without the underscores between them. -/
def digitRun (isDigit : Char → Bool) : List Char → List Char × List Char
  | [] => ([], [])
  | c :: cs =>
    if isDigit c then
      let r := digitRun isDigit cs
      (c :: r.1, r.2)
    else if c = '_' && cs.head?.any isDigit then digitRun isDigit cs
    else ([], c :: cs)

/-- Reads a run of digits that begins with one. -/
def readDigits (isDigit : Char → Bool) : Reader (List Char)
  | c :: cs => if isDigit c then some (digitRun isDigit (c :: cs)) else none
  | [] => none

/-- A sign, if there is one, as whether it is negative. -/
def readSign : List Char → Option Bool × List Char
  | '+' :: cs => (some false, cs)
  | '-' :: cs => (some true, cs)
  | cs => (none, cs)

/-- The number with these digits. -/
def ofDigits (base : Nat) (ds : List Char) : Nat :=
  ds.foldl (fun n d => base * n + (hexValue? d).getD 0) 0

/-- The integers of 64 bits. -/
def integer? (n : Int) : Option Value :=
  if Int64.minValue.toInt ≤ n ∧ n ≤ Int64.maxValue.toInt then some (.integer n) else none

/-- Half a step above the largest finite number, the step being that between the largest two. -/
def overflowThreshold : Nat := 1 <<< 1024 - 1 <<< 970

/-- The number `mantissa * 10 ^ exponent` is rounded to infinity: it is at least half a step above
the largest finite number. -/
def roundsToInfinity (mantissa : Nat) (exponent : Int) : Bool :=
  let size := (Nat.toDigits 10 mantissa).length + exponent
  if mantissa = 0 ∨ size < 300 then false
  else if 320 < size then true
  else
    decide (overflowThreshold * Nat.pow 10 (-exponent).toNat ≤ mantissa * Nat.pow 10 exponent.toNat)

/-- Reads what follows the point of a float, if there is one: its digits. -/
def readFraction : Reader (List Char)
  | '.' :: cs => readDigits Char.isDigit cs
  | cs => some ([], cs)

/-- Reads the exponent of a float, if there is one. -/
def readExponent : Reader (Option Int)
  | c :: cs =>
    if c = 'e' || c = 'E' then
      let (sign, cs) := readSign cs
      (readDigits Char.isDigit cs).map fun r =>
        let n : Int := ofDigits 10 r.1
        (some (if sign = some true then -n else n), r.2)
    else some (none, c :: cs)
  | [] => some (none, [])

/-- Reads the part of a number before a point: one zero, or digits that begin with another. -/
def readWhole : Reader (List Char)
  | '0' :: cs => some (['0'], cs)
  | cs => readDigits Char.isDigit cs

/-- Reads a decimal number after its sign. -/
def readDecimal (isNegative : Bool) : Reader Value := fun cs => do
  let (whole, cs₁) ← readWhole cs
  let (fraction, cs₂) ← readFraction cs₁
  let (exponent, rest) ← readExponent cs₂
  if fraction.isEmpty && exponent.isNone then
    let n : Int := ofDigits 10 whole
    return (← integer? (if isNegative then -n else n), rest)
  else
    let shift := exponent.getD 0 - fraction.length
    if !isNegative && roundsToInfinity (ofDigits 10 (whole ++ fraction)) shift then none
    else
      let spelling := cs.take (cs.length - rest.length)
      some (.float (String.ofList (if isNegative then '-' :: spelling else spelling)), rest)

/-- Reads digits to a base other than ten. -/
def readBased (base : Nat) : Reader Value := fun cs => do
  let (ds, rest) ← readDigits (fun c => (hexValue? c).any fun v => decide (v < base)) cs
  return (← integer? (ofDigits base ds), rest)

/-- Reads a number. -/
def readNumber : Reader Value
  | '0' :: 'x' :: cs => readBased 16 cs
  | '0' :: 'o' :: cs => readBased 8 cs
  | '0' :: 'b' :: cs => readBased 2 cs
  | cs =>
    let (sign, cs) := readSign cs
    match cs with
    | 'i' :: 'n' :: 'f' :: rest =>
      some (.float (if sign = some true then "-inf" else "inf"), rest)
    | 'n' :: 'a' :: 'n' :: rest =>
      some (.float (if sign = some true then "-nan" else "nan"), rest)
    | cs => readDecimal (sign = some true) cs

end LedgerKit.Toml
