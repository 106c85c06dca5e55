import LedgerKit.Client.Config
import LedgerKit.Toml.Document
import LedgerKit.Toml.Printer

/-!
# Configuration files

A configuration is written as a TOML document and read from one.  Keys that a configuration does not
have are passed over, and those that are missing have their defaults.
-/

namespace LedgerKit

namespace Toml.Value

/-- The text of a string. -/
def text? : Value → Option String
  | string s => some s
  | _ => none

/-- An integer as an unsigned number. -/
def count? : Value → Option UInt64
  | integer n => if 0 ≤ n then some (UInt64.ofNat n.toNat) else none
  | _ => none

/-- The elements of an array, or the tables under one header in double brackets. -/
def elements? : Value → Option (List Value)
  | array vs => some vs
  | tables ts => some (ts.map (table .header))
  | _ => none

end Toml.Value

/-- A key of a table read by `read`, or a default if the key is missing. -/
def Toml.Entries.getOr {α : Type} (es : Entries) (key : String) (default : α)
    (read : Value → Option α) : Option α :=
  match es.lookup key with
  | some v => read v
  | none => some default

/-- A node: a table with its two texts, or an array that begins with them. -/
def NodeEntry.ofToml? : Toml.Value → Option NodeEntry
  | .table _ es => do
    return ⟨← (← es.lookup "address").text?, ← (← es.lookup "account_id").text?⟩
  | .array (address :: accountId :: _) => do return ⟨← address.text?, ← accountId.text?⟩
  | _ => none

/-- A log format: its name, or a table with its name for its only key and nothing under it. -/
def LogFormat.ofToml? : Toml.Value → Option LogFormat
  | .string name => ofName? name
  | .table _ [(name, .table _ [])] => ofName? name
  | .table _ [(name, .array [])] => ofName? name
  | _ => none

namespace ClientConfig

/-- The configuration that the entries of a document amount to. -/
def ofEntries? (es : Toml.Entries) : Option ClientConfig := do
  return {
    network := ← es.getOr "network" "testnet" (·.text?)
    ledgerId := ← es.getOr "ledger_id" none fun v => do
      return some (← (LedgerId.parse (← v.text?)).toOption)
    nodes := ← es.getOr "nodes" [] fun v => do (← v.elements?).mapM NodeEntry.ofToml?
    maxNodes := ← es.getOr "max_nodes_per_transaction" 1 (·.count?)
    logFormat := ← es.getOr "log_format" .human LogFormat.ofToml?
    logLevel := ← es.getOr "log_level" "info" (·.text?) }

/-- Reads a configuration. -/
def ofToml (text : String) : Except ClientError ClientConfig :=
  match (Toml.parse? text).bind ofEntries? with
  | some c => .ok c
  | none => .error .malformedConfig

/-- Reads a configuration from the content of a file, if there is one. -/
def ofFile (content? : Option Bytes) : Except ClientError ClientConfig :=
  match content?.bind Text.ofUtf8? with
  | some text => ofToml text
  | none => .error .unreadableFile

/-- The line that gives a key a value. -/
def tomlLine (key : String) (value : List Char) : List Char :=
  key.toList ++ " = ".toList ++ value ++ ['\n']

/-- The line that gives a key a text. -/
def tomlTextLine (key text : String) : List Char := tomlLine key (Toml.writeString text.toList)

/-- The lines of a node: a header and its two texts. -/
def tomlNode (n : NodeEntry) : List Char :=
  "\n[[nodes]]\n".toList ++ tomlTextLine "address" n.address
    ++ tomlTextLine "account_id" n.accountId

/-- The document of a configuration. -/
def tomlChars (c : ClientConfig) : List Char :=
  tomlTextLine "network" c.network
    ++ (match c.ledgerId with
      | some l => tomlTextLine "ledger_id" l.toString
      | none => [])
    ++ (if c.nodes.isEmpty then tomlLine "nodes" ['[', ']'] else [])
    ++ tomlLine "max_nodes_per_transaction" (Nat.toDigits 10 c.maxNodes.toNat)
    ++ tomlTextLine "log_format" c.logFormat.name
    ++ tomlTextLine "log_level" c.logLevel
    ++ c.nodes.flatMap tomlNode

/-- Writes a configuration.  The document's integers have a sign, so a number of 2 ^ 63 or more has
no place in it. -/
def toToml (c : ClientConfig) : Except ClientError String :=
  if c.maxNodes.toNat < Int64.size / 2 then .ok (String.ofList c.tomlChars)
  else .error .malformedConfig

end ClientConfig

end LedgerKit
