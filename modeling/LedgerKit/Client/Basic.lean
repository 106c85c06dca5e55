import LedgerKit.Client.Config

/-!
# Clients

A client knows a network: its ledger, on which checksums depend, and its nodes, which transactions
are frozen for.  It is made from a configuration (`Client.ofConfig`), in which the ids of the nodes
are read and their checksums compared with those of the ledger.
-/

namespace LedgerKit

/-- A node of a network. -/
structure Node where
  /-- Where it is reached. -/
  address : String
  /-- Its account. -/
  accountId : AccountId
deriving DecidableEq

/-- A network that transactions can be prepared for. -/
structure Client where
  /-- The name of the network. -/
  network : String
  /-- The ledger, if it is known. -/
  ledgerId : Option LedgerId
  /-- The nodes. -/
  nodes : List Node
  /-- The most nodes that a transaction is prepared for. -/
  maxNodes : UInt64
deriving DecidableEq

/-- The nodes of the networks that are known by name. -/
def Network.nodes : Network → List Node
  | .mainnet =>
    [⟨"35.237.200.180:50211", .ofNumbers 0 0 3⟩, ⟨"35.186.191.247:50211", .ofNumbers 0 0 4⟩,
      ⟨"35.192.2.25:50211", .ofNumbers 0 0 5⟩, ⟨"35.199.161.108:50211", .ofNumbers 0 0 6⟩]
  | .testnet =>
    [⟨"0.testnet.hedera.com:50211", .ofNumbers 0 0 3⟩,
      ⟨"1.testnet.hedera.com:50211", .ofNumbers 0 0 4⟩,
      ⟨"2.testnet.hedera.com:50211", .ofNumbers 0 0 5⟩,
      ⟨"3.testnet.hedera.com:50211", .ofNumbers 0 0 6⟩]
  | .previewnet =>
    [⟨"0.previewnet.hedera.com:50211", .ofNumbers 0 0 3⟩,
      ⟨"1.previewnet.hedera.com:50211", .ofNumbers 0 0 4⟩,
      ⟨"2.previewnet.hedera.com:50211", .ofNumbers 0 0 5⟩,
      ⟨"3.previewnet.hedera.com:50211", .ofNumbers 0 0 6⟩]

/-- A configured node with its account's id read. -/
def NodeEntry.toNode (n : NodeEntry) : Except IdError Node :=
  (TypedId.parse n.accountId).map fun id => ⟨n.address, id⟩

namespace ClientConfig

/-- The nodes that are listed or, if there are none, those known of the network. -/
def resolveNodes (c : ClientConfig) : Except ClientError (List Node) :=
  if c.nodes.isEmpty then
    match Network.ofName? c.network with
    | some n => .ok n.nodes
    | none => .error (.unknownNetwork c.network)
  else (c.nodes.mapM NodeEntry.toNode).mapError .wrongNodeId

/-- The ledger that is given or else that of the network, if the network is known by name. -/
def resolveLedger (c : ClientConfig) : Option LedgerId :=
  c.ledgerId.or ((Network.ofName? c.network).map Network.ledger)

end ClientConfig

/-- Checks an id that was given with a checksum; without a known ledger there is nothing to compare
it with. -/
def EntityId.validateIfKnown (id : EntityId) (ledger? : Option LedgerId) : Except IdError Unit :=
  if id.checksum.isSome && ledger?.isSome then id.validateChecksum ledger? else .ok ()

namespace Client

/-- The client for a network that is known by name. -/
def ofNetwork (n : Network) : Client := ⟨n.name, some n.ledger, n.nodes, 1⟩

/-- The client of a configuration. -/
def ofConfig (c : ClientConfig) : Except ClientError Client := do
  let nodes ← c.resolveNodes
  let ledger := c.resolveLedger
  (nodes.forM fun n => n.accountId.id.validateIfKnown ledger).mapError .wrongNodeId
  if c.maxNodes = 0 then .error .noNodesAllowed else .ok ⟨c.network, ledger, nodes, c.maxNodes⟩

/-- The accounts of the nodes. -/
def nodeAccountIds (c : Client) : List AccountId := c.nodes.map Node.accountId

/-- The accounts of the nodes that a transaction is frozen for. -/
def selectNodes (c : Client) : List AccountId :=
  (c.nodes.take c.maxNodes.toNat).map Node.accountId

/-- Checks the checksum attached to an id against the ledger of the network. -/
def validateChecksum (c : Client) (id : EntityId) : Except IdError Unit :=
  id.validateChecksum c.ledgerId

/-- The written form of an id with its checksum for the ledger of the network. -/
def toStringWithChecksum (c : Client) (id : EntityId) : Except IdError String :=
  id.toStringWithChecksum c.ledgerId

/-- What is logged when the client has been made from a configuration. -/
def configuredLine (c : Client) : LogLine where
  level := .debug
  message := "client configured"
  fields :=
    [("network", c.network),
      ("ledger_id", match c.ledgerId with
        | none => "None"
        | some l => s!"Some({l.inspect})"),
      ("nodes", s!"{c.nodes.length}")]

end Client

end LedgerKit
