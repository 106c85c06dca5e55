/-!
# Values of a configuration language

What a TOML document says.  A table remembers how it came about, since that decides which later
parts of the document may add to it.
-/

namespace LedgerKit.Toml

/-- How a table came about. -/
inductive Origin where
  /-- Written between braces, and complete. -/
  | inline
  /-- By a header of its own, or as the document itself. -/
  | header
  /-- Because the header of another table names it on the way. -/
  | implied
  /-- Because a dotted key names it on the way. -/
  | dotted
deriving DecidableEq, Repr

/-- A value. -/
inductive Value where
  | string (text : String)
  | integer (n : Int)
  /-- A number with a fraction or an exponent, or one that is not finite, as it was spelt. -/
  | float (spelling : String)
  | boolean (b : Bool)
  /-- A date, a time or both, as they were spelt. -/
  | dateTime (spelling : String)
  | array (elements : List Value)
  | table (origin : Origin) (entries : List (String × Value))
  /-- Tables under one header in double brackets. -/
  | tables (elements : List (List (String × Value)))
deriving Repr

/-- The entries of a table. -/
abbrev Entries := List (String × Value)

namespace Entries

/-- Puts a value in the place of the one under a key. -/
def replace (key : String) (v : Value) : Entries → Entries
  | [] => []
  | e :: es => if e.1 = key then (key, v) :: es else e :: replace key v es

/-- The entries without the one under a key. -/
def erase (key : String) (es : Entries) : Entries := es.filter fun e => e.1 ≠ key

/-- Works on the table at the end of a path.  Tables that are missing on the way are made; a table
that exists may be passed unless it is written between braces or, on the path of a dotted key, has a
header of its own; of several tables under one header the last is taken. -/
def update {α : Type} (isDotted : Bool) (work : Origin → Entries → Option (Entries × α)) :
    (path : List String) → Origin → Entries → Option (Entries × α)
  | [], origin, es => work origin es
  | key :: path, _, es =>
    match es.lookup key with
    | none =>
      let origin := if isDotted then .dotted else .implied
      (update isDotted work path origin []).map fun r => (es ++ [(key, .table origin r.1)], r.2)
    | some (.table origin sub) =>
      if origin = .inline ∨ (isDotted ∧ origin = .header) then none
      else
        (update isDotted work path origin sub).map fun r =>
          (replace key (.table origin r.1) es, r.2)
    | some (.tables ts) =>
      match ts.getLast? with
      | none => none
      | some last =>
        (update isDotted work path .header last).map fun r =>
          (replace key (.tables (ts.dropLast ++ [r.1])) es, r.2)
    | some _ => none

/-- Adds a value under a dotted key, given as the path to its last part and that part.  Nothing may
be there, and a path may only lead to a table that dotted keys have made. -/
def add (path : List String) (key : String) (v : Value) (origin : Origin) (es : Entries) :
    Option Entries :=
  (update true (fun origin es =>
      if decide (origin = .dotted) == path.isEmpty then none
      else if (es.lookup key).isSome then none
      else some (es ++ [(key, v)], ())) path origin es).map Prod.fst

end Entries

end LedgerKit.Toml
