import LedgerKit.Id.Typed
import LedgerKit.Log

/-!
# The configuration of a client

What a client is made from, its JSON form, and what can go wrong with either.
-/

namespace LedgerKit

/-- A node as it is configured. -/
structure NodeEntry where
  /-- Where it is reached. -/
  address : String
  /-- The id of its account, as it was written. -/
  accountId : String
deriving DecidableEq

/-- The form shown in diagnostics. -/
def NodeEntry.inspect (n : NodeEntry) : String :=
  s!"NodeEntry \x7b address: {Text.quoted n.address}, account_id: {Text.quoted n.accountId} \x7d"

/-- What a client is made from. -/
structure ClientConfig where
  /-- The name of the network. -/
  network : String := "testnet"
  /-- The ledger, where it is not the one of the network. -/
  ledgerId : Option LedgerId := none
  /-- The nodes; if there are none, those known of the network are meant. -/
  nodes : List NodeEntry := []
  /-- The most nodes that a transaction is prepared for. -/
  maxNodes : UInt64 := 1
  /-- How log lines are written. -/
  logFormat : LogFormat := .human
  /-- Which log lines are written. -/
  logLevel : String := "info"
deriving DecidableEq

/-- The form shown in diagnostics. -/
def ClientConfig.inspect (c : ClientConfig) : String :=
  let ledger :=
    match c.ledgerId with
    | none => "None"
    | some l => s!"Some({l.inspect})"
  let nodes := ", ".intercalate (c.nodes.map NodeEntry.inspect)
  s!"ClientConfig \x7b network: {Text.quoted c.network}, ledger_id: {ledger}, nodes: [{nodes}], "
    ++ s!"max_nodes_per_transaction: {c.maxNodes}, log_format: {c.logFormat.inspect}, "
    ++ s!"log_level: {Text.quoted c.logLevel} \x7d"

/-! ### What can go wrong -/

/-- Why there is no client, or no configuration. -/
inductive ClientError where
  /-- The text is no configuration, or a configuration has no text. -/
  | malformedConfig
  /-- No node would ever be taken. -/
  | noNodesAllowed
  /-- The file is missing or is no text. -/
  | unreadableFile
  /-- The id of a node is wrong. -/
  | wrongNodeId (cause : IdError)
  /-- No nodes are listed, and the network is not one of those that are known by name. -/
  | unknownNetwork (name : String)
deriving DecidableEq

/-- The words for an error.  What is wrong inside a file is not told. -/
def ClientError.message? : ClientError → Option String
  | .malformedConfig => none
  | .noNodesAllowed => some "config error: max_nodes_per_transaction must be at least 1"
  | .unreadableFile => none
  | .wrongNodeId cause => some s!"entity id error: {cause.message}"
  | .unknownNetwork name =>
    some s!"network {Text.quoted name} has no built-in address book; list its nodes explicitly"

/-! ### JSON form -/

/-- A log format is its name, or an object with its name for its only key and null under it. -/
instance : Json.Codec LogFormat where
  toValue f := .ofText f.name
  ofValue?
    | .object [(key, .null)] => do LogFormat.ofName? (← Json.Piece.text? key)
    | v => do LogFormat.ofName? (← v.text?)

instance : Json.Codec NodeEntry where
  toValue n := .ofFields [("address", .ofText n.address), ("account_id", .ofText n.accountId)]
  ofValue? v := do
    let fields ← v.fields? ["address", "account_id"]
    return ⟨← Json.field? fields "address" (·.text?), ← Json.field? fields "account_id" (·.text?)⟩

/-- The nodes of a configuration. -/
def NodeEntry.ofJsonArray? : Json.Value → Option (List NodeEntry)
  | .array vs => vs.mapM Json.Codec.ofValue?
  | _ => none

instance : Json.Codec ClientConfig where
  toValue c :=
    .ofFields ([("network", .ofText c.network)]
      ++ (c.ledgerId.map fun l => ("ledger_id", Json.Codec.toValue l)).toList
      ++ [("nodes", .array (c.nodes.map Json.Codec.toValue)),
        ("max_nodes_per_transaction", .ofNat c.maxNodes.toNat),
        ("log_format", Json.Codec.toValue c.logFormat), ("log_level", .ofText c.logLevel)])
  ofValue? v := do
    let fields ← v.fields? ["network", "ledger_id", "nodes", "max_nodes_per_transaction",
      "log_format", "log_level"]
    return {
      network := ← Json.fieldOr? fields "network" "testnet" (·.text?)
      ledgerId := ← Json.fieldOr? fields "ledger_id" none (Json.nullable? Json.Codec.ofValue?)
      nodes := ← Json.fieldOr? fields "nodes" [] NodeEntry.ofJsonArray?
      maxNodes := ← Json.fieldOr? fields "max_nodes_per_transaction" 1 (·.uint64?)
      logFormat := ← Json.fieldOr? fields "log_format" .human Json.Codec.ofValue?
      logLevel := ← Json.fieldOr? fields "log_level" "info" (·.text?) }

end LedgerKit
