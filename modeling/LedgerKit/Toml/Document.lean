import LedgerKit.Toml.DateTime

/-!
# Documents, read

A document is a list of statements, one on a line: a key with its value, the header of a table, or
the header of one of several tables.  `statements?` reads them, `Draft` puts together what they say,
and `parse?` does both.
-/

namespace LedgerKit.Toml

/-- How many parts a dotted key may have, and how deep values may be nested. -/
def nestingLimit : Nat := 79

/-- The characters of a key without quotation marks. -/
def isKeyChar (c : Char) : Bool :=
  ('a' ≤ c && c ≤ 'z') || ('A' ≤ c && c ≤ 'Z') || ('0' ≤ c && c ≤ '9') || c == '-' || c == '_'

/-- Reads one part of a key. -/
def readKeyPart : Reader String
  | [] => none
  | c :: cs =>
    if c = '"' then (readShort .text cs).map fun r => (String.ofList r.1, r.2)
    else if c = '\'' then (readShortLiteral cs).map fun r => (String.ofList r.1, r.2)
    else if isKeyChar c then
      some (String.ofList (c :: cs.takeWhile isKeyChar), cs.dropWhile isKeyChar)
    else none

/-- Reads the parts of a key, with dots between them; there are at most `fuel` of them. -/
def readKeyParts : (fuel : Nat) → Reader (List String)
  | 0, _ => none
  | fuel + 1, cs => do
    let (part, cs) ← readKeyPart (skipBlanks cs)
    match skipBlanks cs with
    | '.' :: cs => (readKeyParts fuel cs).map fun r => (part :: r.1, r.2)
    | cs => some ([part], cs)

/-- Reads a key: the path to its last part, and that part. -/
def readKey : Reader (List String × String) := fun cs => do
  let (parts, rest) ← readKeyParts nestingLimit cs
  return ((parts.dropLast, ← parts.getLast?), rest)

/-- Reads the elements of an array and its bracket, with at most `fuel` elements. -/
def readElements (item : Reader Value) : (fuel : Nat) → Reader (List Value)
  | fuel, cs =>
    match skipLines false cs, fuel with
    | ']' :: cs, _ => some ([], cs)
    | _, 0 => none
    | cs, fuel + 1 => do
      let (v, cs) ← item cs
      match skipLines false cs with
      | ',' :: cs => (readElements item fuel cs).map fun r => (v :: r.1, r.2)
      | ']' :: cs => some ([v], cs)
      | _ => none

/-- Reads a key and its value within braces. -/
def readPair (item : Reader Value) : Reader ((List String × String) × Value) := fun cs => do
  let (key, cs) ← readKey cs
  let (v, cs) ← item (skipBlanks (← after? '=' (skipBlanks cs)))
  return ((key, v), skipBlanks cs)

/-- Reads the entries of a table within braces and its brace, at most `fuel` of them. -/
def readPairs (item : Reader Value) : (fuel : Nat) → Entries → Reader Entries
  | 0, _, _ => none
  | fuel + 1, es, cs => do
    let ((key, v), cs) ← readPair item cs
    let es ← es.add key.1 key.2 v .inline
    match cs with
    | ',' :: cs => readPairs item fuel es cs
    | '}' :: cs => some (es, cs)
    | _ => none

/-- Reads a value that is no array and no table. -/
def readScalar : Reader Value := fun cs =>
  match cs with
  | 't' :: 'r' :: 'u' :: 'e' :: cs => some (.boolean true, cs)
  | 'f' :: 'a' :: 'l' :: 's' :: 'e' :: cs => some (.boolean false, cs)
  | '"' :: _ => (readString cs).map fun r => (.string r.1, r.2)
  | '\'' :: _ => (readString cs).map fun r => (.string r.1, r.2)
  | _ =>
    match readDateTime cs with
    | some r => some r
    | none => readNumber cs

/-- Reads a value, with at most `depth` arrays and tables around its innermost part. -/
def readValue : (depth : Nat) → Reader Value
  | 0, cs => if cs.head? = some '[' ∨ cs.head? = some '\x7b' then none else readScalar cs
  | depth + 1, cs =>
    match cs with
    | '[' :: cs => (readElements (readValue depth) cs.length cs).map fun r => (.array r.1, r.2)
    | '\x7b' :: cs =>
      match skipBlanks cs with
      | '}' :: cs => some (.table .inline [], cs)
      | cs =>
        (readPairs (readValue depth) cs.length [] cs).map fun r => (.table .inline r.1, r.2)
    | cs => readScalar cs

/-- What a line of a document says. -/
inductive Statement where
  /-- A value is under a key. -/
  | pair (path : List String) (key : String) (v : Value)
  /-- The pairs that follow are those of a table. -/
  | table (path : List String) (key : String)
  /-- The pairs that follow are those of one more of several tables. -/
  | tables (path : List String) (key : String)

/-- Reads the statement on a line that has one, and passes to the next line. -/
def readStatement : Reader Statement := fun cs =>
  match cs with
  | '[' :: '[' :: cs => do
    let ((path, key), cs) ← readKey cs
    let cs ← afterLine? (← after? ']' (← after? ']' cs))
    return (.tables path key, cs)
  | '[' :: cs => do
    let ((path, key), cs) ← readKey cs
    let cs ← afterLine? (← after? ']' cs)
    return (.table path key, cs)
  | cs => do
    let ((path, key), cs) ← readKey cs
    let (v, cs) ← readValue nestingLimit (skipBlanks (← after? '=' cs))
    let cs ← afterLine? cs
    return (.pair path key v, cs)

/-- Reads the statements of a document with at most `fuel` lines. -/
def readStatements : (fuel : Nat) → List Char → Option (List Statement)
  | 0, _ => none
  | fuel + 1, cs =>
    match skipBlanks cs with
    | [] => some []
    | c :: cs =>
      if c = '#' ∨ c = '\n' ∨ c = '\r' then do readStatements fuel (← afterLine? (c :: cs))
      else do
        let (s, cs) ← readStatement (c :: cs)
        return s :: (← readStatements fuel cs)

/-- The statements of a document, which may begin with a byte order mark. -/
def statements? (cs : List Char) : Option (List Statement) :=
  let cs :=
    match cs with
    | '\ufeff' :: cs => cs
    | cs => cs
  readStatements (cs.length + 1) cs

/-- Which table the pairs of a document go to at the moment. -/
inductive Place where
  /-- The document itself. -/
  | top
  /-- A table with a header. -/
  | table (path : List String) (key : String)
  /-- A table among several. -/
  | tables (path : List String) (key : String)

/-- A document in the making. -/
structure Draft where
  /-- What the document says, without the current table. -/
  entries : Entries
  /-- Where the current table belongs. -/
  place : Place
  /-- The entries of the current table. -/
  current : Entries

namespace Draft

/-- Before the first statement. -/
def empty : Draft := ⟨[], .top, []⟩

/-- The entries with the current table put in its place. -/
def close (d : Draft) : Option Entries :=
  match d.place with
  | .top => some d.current
  | .table path key =>
    (Entries.update false (fun _ es =>
      if (es.lookup key).isSome then none
      else some (es ++ [(key, .table .header d.current)], ())) path .header d.entries).map Prod.fst
  | .tables path key =>
    (Entries.update false (fun _ es =>
      match es.lookup key with
      | some (.tables ts) => some (Entries.replace key (.tables (ts ++ [d.current])) es, ())
      | _ => none) path .header d.entries).map Prod.fst

/-- Begins the table with a header.  A table that other headers have implied is taken up again; any
other value under the key is an error. -/
def openTable (d : Draft) (path : List String) (key : String) : Option Draft := do
  let (es, current) ← Entries.update false (fun _ es =>
    match es.lookup key with
    | none => some (es, [])
    | some (.table .implied sub) => some (Entries.erase key es, sub)
    | some _ => none) path .header (← d.close)
  return ⟨es, .table path key, current⟩

/-- Begins one more table of several. -/
def openTables (d : Draft) (path : List String) (key : String) : Option Draft := do
  let (es, _) ← Entries.update false (fun _ es =>
    match es.lookup key with
    | none => some (es ++ [(key, .tables [])], ())
    | some (.tables _) => some (es, ())
    | some _ => none) path .header (← d.close)
  return ⟨es, .tables path key, []⟩

/-- Takes a statement into account. -/
def add (d : Draft) : Statement → Option Draft
  | .pair path key v => do return { d with current := ← d.current.add path key v .header }
  | .table path key => d.openTable path key
  | .tables path key => d.openTables path key

end Draft

/-- The entries of a document. -/
def parse? (text : String) : Option Entries := do
  let statements ← statements? text.toList
  let d ← statements.foldlM Draft.add .empty
  d.close

end LedgerKit.Toml
