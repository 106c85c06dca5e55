import LedgerKit.Toml.Number

/-!
# Dates and times, read

A date, a time, or a date and a time with or without an offset.  Days are checked against the
calendar and a minute may have a leap second.
-/

namespace LedgerKit.Toml

/-- Reads exactly `n` digits as a number. -/
def readFixed (n : Nat) : Reader Nat := fun cs =>
  let ds := cs.take n
  if ds.length = n ∧ ds.all Char.isDigit then some (ofDigits 10 ds, cs.drop n) else none

/-- Reads two digits between two bounds. -/
def readBetween (low high : Nat) : Reader Nat := fun cs => do
  let (n, rest) ← readFixed 2 cs
  if low ≤ n ∧ n ≤ high then some (n, rest) else none

/-- What follows a character. -/
def after? (c : Char) : List Char → Option (List Char)
  | d :: cs => if d = c then some cs else none
  | [] => none

/-- How many days a month has. -/
def monthLength (year month : Nat) : Nat :=
  if month = 2 then
    if year % 4 = 0 ∧ (year % 100 ≠ 0 ∨ year % 400 = 0) then 29 else 28
  else if month = 4 ∨ month = 6 ∨ month = 9 ∨ month = 11 then 30
  else 31

/-- What follows a date. -/
def afterDate? (cs : List Char) : Option (List Char) := do
  let (year, cs) ← readFixed 4 cs
  let (month, cs) ← readBetween 1 12 (← after? '-' cs)
  let (_, cs) ← readBetween 1 (monthLength year month) (← after? '-' cs)
  return cs

/-- What follows the fraction of a second, if there is one. -/
def afterFraction (cs : List Char) : List Char :=
  match cs with
  | '.' :: d :: rest => if d.isDigit then rest.dropWhile Char.isDigit else cs
  | _ => cs

/-- What follows a time. -/
def afterTime? (cs : List Char) : Option (List Char) := do
  let (_, cs) ← readBetween 0 23 cs
  let (_, cs) ← readBetween 0 59 (← after? ':' cs)
  let (_, cs) ← readBetween 0 60 (← after? ':' cs)
  return afterFraction cs

/-- What follows an offset, if there is one; one that is begun has to be finished. -/
def afterOffset? : List Char → Option (List Char)
  | 'Z' :: cs => some cs
  | 'z' :: cs => some cs
  | c :: cs =>
    if c = '+' || c = '-' then do
      let (_, cs) ← readBetween 0 23 cs
      let (_, cs) ← readBetween 0 59 (← after? ':' cs)
      return cs
    else some (c :: cs)
  | [] => some []

/-- What follows the time of a day, if there is one; without one, a blank is no part of the date. -/
def afterTimeOfDay? (cs : List Char) : Option (List Char) :=
  match cs with
  | c :: rest =>
    if c = 'T' || c = 't' || c = ' ' then
      match afterTime? rest with
      | some rest => afterOffset? rest
      | none => some cs
    else some cs
  | [] => some []

/-- Reads a date, a time or both. -/
def readDateTime : Reader Value := fun cs => do
  let rest ←
    match afterDate? cs with
    | some rest => afterTimeOfDay? rest
    | none => afterTime? cs
  return (.dateTime (String.ofList (cs.take (cs.length - rest.length))), rest)

end LedgerKit.Toml
