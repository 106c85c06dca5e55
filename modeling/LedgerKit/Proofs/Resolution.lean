import LedgerKit.Client.Basic
import LedgerKit.Proofs.Lists
import LedgerKit.Proofs.Validation

/-!
# Which client a configuration makes

A configuration is resolved into a client or into one of four errors.  `ClientConfig.Resolves` says
which, without following the program: nodes without a network of that name; else the first entry
whose id cannot be read; else the first node, in the order of the list, whose letters are not those
of its checksum on the resolved ledger; else no node allowed; and else a client.

* `ClientConfig.exists_resolves` : every configuration is resolved.
* `ClientConfig.Resolves.ofConfig` : the program yields what a configuration is resolved into.
* `Client.ofConfig_exact` : both together, and what holds of a client that is made.
-/

namespace LedgerKit

/-! ### Attached letters -/

namespace EntityId

variable {id : EntityId} {l : LedgerId}

/-- The letters attached to the id, if there are any, are those of its checksum on the ledger. -/
def FitsOn (id : EntityId) (l : LedgerId) : Prop :=
  ∀ k, id.checksum = some k → id.computeChecksum (some l) = .ok k

theorem FitsOn.validateChecksum (h : id.FitsOn l) : id.validateChecksum (some l) = .ok () := by
  cases hk : id.checksum with
  | none => simp [EntityId.validateChecksum, hk]
  | some k =>
    have hsame : id.checksumOn l = k :=
      Except.ok.inj ((id.computeChecksum_some l).symm.trans (h k hk))
    rw [validateChecksum_some l hk, if_pos hsame]

theorem validateIfKnown_of_fits {ledger? : Option LedgerId}
    (h : ∀ l, ledger? = some l → id.FitsOn l) : id.validateIfKnown ledger? = .ok () := by
  unfold validateIfKnown
  split
  · cases ledger? with
    | none => simp_all
    | some l => exact (h l rfl).validateChecksum
  · rfl

theorem validateIfKnown_of_mismatch {expected actual : Checksum}
    (hactual : id.checksum = some actual) (hexpected : id.computeChecksum (some l) = .ok expected)
    (hne : expected ≠ actual) :
    id.validateIfKnown (some l) = .error (.checksumMismatch expected actual) := by
  obtain rfl : id.checksumOn l = expected :=
    Except.ok.inj ((id.computeChecksum_some l).symm.trans hexpected)
  rw [validateIfKnown, hactual, Option.isSome_some, Option.isSome_some, Bool.and_self, if_pos rfl,
    validateChecksum_some l hactual, if_neg hne]

end EntityId

/-! ### What is configured -/

namespace NodeEntry

/-- The entry is for this node: it has its address, and its account's id as it is written with the
letters that are attached to it. -/
def Denotes (entry : NodeEntry) (node : Node) : Prop :=
  node.address = entry.address ∧ node.accountId.id.text = entry.accountId

theorem Denotes.toNode {entry : NodeEntry} {node : Node} (h : entry.Denotes node) :
    entry.toNode = .ok node := by
  obtain ⟨address, ⟨id⟩⟩ := node
  obtain ⟨rfl, hid⟩ := h
  rw [NodeEntry.toNode, TypedId.parse, EntityId.parse_eq_ok_iff.2 hid.symm]
  rfl

theorem toNode_of_malformed {entry : NodeEntry} (h : ¬ IsIdText entry.accountId.toList) :
    entry.toNode = .error (.malformed entry.accountId) := by
  have hparse : EntityId.parse entry.accountId = .error (.malformed entry.accountId) :=
    EntityId.parse_eq_error_iff.2 ⟨not_exists.1 fun hid => h (EntityId.exists_text_iff.1 hid), rfl⟩
  rw [NodeEntry.toNode, TypedId.parse, hparse]
  rfl

theorem exists_denotes {entry : NodeEntry} (h : IsIdText entry.accountId.toList) :
    ∃ node, entry.Denotes node := by
  obtain ⟨id, hid⟩ := EntityId.exists_text_iff.2 h
  exact ⟨⟨entry.address, ⟨id⟩⟩, rfl, hid.symm⟩

theorem exists_forall₂_denotes {entries : List NodeEntry}
    (h : ∀ x ∈ entries, IsIdText x.accountId.toList) :
    ∃ nodes, List.Forall₂ Denotes entries nodes := by
  induction entries with
  | nil => exact ⟨[], .nil⟩
  | cons entry entries ih =>
    obtain ⟨node, hnode⟩ := exists_denotes (h entry List.mem_cons_self)
    obtain ⟨nodes, hnodes⟩ := ih fun x hx => h x (List.mem_cons_of_mem entry hx)
    exact ⟨node :: nodes, .cons hnode hnodes⟩

end NodeEntry

namespace ClientConfig

variable {c : ClientConfig} {nodes : List Node} {o : Except ClientError Client}

/-- The nodes are those of the entries, one for one and in their order; if there is no entry, they
are those known of the network. -/
def NodesAre (c : ClientConfig) (nodes : List Node) : Prop :=
  (c.nodes = [] ∧ ∃ n : Network, c.network = n.name ∧ nodes = n.nodes) ∨
    (c.nodes ≠ [] ∧ List.Forall₂ NodeEntry.Denotes c.nodes nodes)

/-- The ledger is the one that is given or else, where none is given, that of a network that is
known by name. -/
def LedgerIs (c : ClientConfig) (l : LedgerId) : Prop :=
  c.ledgerId = some l ∨ (c.ledgerId = none ∧ ∃ n : Network, c.network = n.name ∧ l = n.ledger)

/-- What a configuration is resolved into. -/
inductive Resolves (c : ClientConfig) : Except ClientError Client → Prop where
  /-- No entry, and no network of that name. -/
  | unknownNetwork (hnodes : c.nodes = []) (hname : ∀ n : Network, c.network ≠ n.name) :
      c.Resolves (.error (.unknownNetwork c.network))
  /-- The first entry whose id is none. -/
  | malformedId {before after : List NodeEntry} {entry : NodeEntry}
      (hnodes : c.nodes = before ++ entry :: after)
      (hbefore : ∀ x ∈ before, IsIdText x.accountId.toList)
      (hentry : ¬ IsIdText entry.accountId.toList) :
      c.Resolves (.error (.wrongNodeId (.malformed entry.accountId)))
  /-- The first node with letters other than those of its checksum. -/
  | mismatch {before after : List Node} {node : Node} {l : LedgerId} {expected actual : Checksum}
      (hnodes : c.NodesAre (before ++ node :: after)) (hledger : c.LedgerIs l)
      (hbefore : ∀ x ∈ before, x.accountId.id.FitsOn l)
      (hactual : node.accountId.id.checksum = some actual)
      (hexpected : node.accountId.id.computeChecksum (some l) = .ok expected)
      (hne : expected ≠ actual) :
      c.Resolves (.error (.wrongNodeId (.checksumMismatch expected actual)))
  /-- Nothing is wrong with the nodes, but none may be taken. -/
  | noNodesAllowed {nodes : List Node} (hnodes : c.NodesAre nodes)
      (hfits : ∀ l, c.LedgerIs l → ∀ x ∈ nodes, x.accountId.id.FitsOn l) (hmax : c.maxNodes = 0) :
      c.Resolves (.error .noNodesAllowed)
  /-- Nothing is wrong. -/
  | client {nodes : List Node} {ledger? : Option LedgerId} (hnodes : c.NodesAre nodes)
      (hledger : ∀ l, ledger? = some l ↔ c.LedgerIs l)
      (hfits : ∀ l, c.LedgerIs l → ∀ x ∈ nodes, x.accountId.id.FitsOn l) (hmax : c.maxNodes ≠ 0) :
      c.Resolves (.ok ⟨c.network, ledger?, nodes, c.maxNodes⟩)

/-- There is a node, whether it is listed or known. -/
theorem NodesAre.ne_nil (h : c.NodesAre nodes) : nodes ≠ [] := by
  obtain ⟨-, n, -, rfl⟩ | ⟨hne, hdenotes⟩ := h
  · cases n <;> simp [Network.nodes]
  · rintro rfl
    exact hne (List.forall₂_nil_right_iff.1 hdenotes)

/-! ### Every configuration is resolved -/

theorem resolveLedger_eq_some_iff {l : LedgerId} : c.resolveLedger = some l ↔ c.LedgerIs l := by
  simp only [resolveLedger, LedgerIs, Option.or_eq_some_iff, Option.map_eq_some_iff,
    Network.ofName?_eq_some_iff, eq_comm (b := l)]

theorem exists_resolves_of_nodes (h : c.NodesAre nodes) : ∃ o, c.Resolves o := by
  by_cases hfits : ∀ l, c.LedgerIs l → ∀ x ∈ nodes, x.accountId.id.FitsOn l
  · by_cases hmax : c.maxNodes = 0
    · exact ⟨_, .noNodesAllowed h hfits hmax⟩
    · exact ⟨_, .client h (fun _ => resolveLedger_eq_some_iff) hfits hmax⟩
  · -- the letters of some node are wrong, and there is a first such node
    obtain ⟨l, hsome⟩ := not_forall.1 hfits
    obtain ⟨hl, hsome⟩ := Classical.not_imp.1 hsome
    obtain ⟨before, node, after, rfl, hbefore, hnode⟩ := exists_first_not hsome
    simp only [EntityId.FitsOn, not_forall] at hnode
    obtain ⟨actual, hactual, hne⟩ := hnode
    have hexpected := node.accountId.id.computeChecksum_some l
    refine ⟨_, .mismatch h hl hbefore hactual hexpected fun heq => hne ?_⟩
    rw [hexpected, heq]

theorem exists_resolves (c : ClientConfig) : ∃ o, c.Resolves o := by
  by_cases hnodes : c.nodes = []
  · by_cases hname : ∃ n : Network, c.network = n.name
    · obtain ⟨n, hn⟩ := hname
      exact exists_resolves_of_nodes (.inl ⟨hnodes, n, hn, rfl⟩)
    · exact ⟨_, .unknownNetwork hnodes (not_exists.1 hname)⟩
  · by_cases hids : ∀ x ∈ c.nodes, IsIdText x.accountId.toList
    · obtain ⟨nodes, hdenotes⟩ := NodeEntry.exists_forall₂_denotes hids
      exact exists_resolves_of_nodes (.inr ⟨hnodes, hdenotes⟩)
    · obtain ⟨before, entry, after, hsplit, hbefore, hentry⟩ := exists_first_not hids
      exact ⟨_, .malformedId hsplit hbefore hentry⟩

/-! ### The program does what is said -/

theorem NodesAre.resolveNodes (h : c.NodesAre nodes) : c.resolveNodes = .ok nodes := by
  unfold ClientConfig.resolveNodes
  obtain ⟨hnil, n, hn, rfl⟩ | ⟨hne, hdenotes⟩ := h
  · rw [if_pos (by simp [hnil]), Network.ofName?_eq_some_iff.2 hn]
  · have hread : List.Forall₂ (fun x y => NodeEntry.toNode x = .ok y) c.nodes nodes :=
      hdenotes.imp fun _ _ hd => hd.toNode
    have hall := mapM_append_of_forall₂ hread []
    rw [List.append_nil] at hall
    rw [if_neg (by simpa using hne), hall]
    simp [Except.map, Except.mapError, pure, Except.pure]

theorem resolveNodes_of_malformed {before after : List NodeEntry} {entry : NodeEntry}
    (hnodes : c.nodes = before ++ entry :: after)
    (hbefore : ∀ x ∈ before, IsIdText x.accountId.toList)
    (hentry : ¬ IsIdText entry.accountId.toList) :
    c.resolveNodes = .error (.wrongNodeId (.malformed entry.accountId)) := by
  obtain ⟨nodes, hdenotes⟩ := NodeEntry.exists_forall₂_denotes hbefore
  have hread : List.Forall₂ (fun x y => NodeEntry.toNode x = .ok y) before nodes :=
    hdenotes.imp fun _ _ hd => hd.toNode
  rw [resolveNodes, if_neg (by simp [hnodes]), hnodes, mapM_append_of_forall₂ hread,
    List.mapM_cons, NodeEntry.toNode_of_malformed hentry]
  rfl

/-- Once the nodes are known, their letters are checked and then the number allowed. -/
theorem NodesAre.ofConfig (h : c.NodesAre nodes) :
    Client.ofConfig c =
      ((nodes.forM fun n => n.accountId.id.validateIfKnown c.resolveLedger).mapError
        .wrongNodeId).bind fun _ => if c.maxNodes = 0 then .error .noNodesAllowed
          else .ok ⟨c.network, c.resolveLedger, nodes, c.maxNodes⟩ := by
  simp only [Client.ofConfig, h.resolveNodes, bind, Except.bind]

theorem NodesAre.ofConfig_of_fits (h : c.NodesAre nodes)
    (hfits : ∀ l, c.LedgerIs l → ∀ x ∈ nodes, x.accountId.id.FitsOn l) :
    Client.ofConfig c = if c.maxNodes = 0 then .error .noNodesAllowed
      else .ok ⟨c.network, c.resolveLedger, nodes, c.maxNodes⟩ := by
  have hvalid : ∀ x ∈ nodes, x.accountId.id.validateIfKnown c.resolveLedger = .ok () := by
    intro x hx
    exact EntityId.validateIfKnown_of_fits fun l hl =>
      hfits l (resolveLedger_eq_some_iff.1 hl) x hx
  have hall := forM_append_of_ok hvalid []
  rw [List.append_nil] at hall
  rw [h.ofConfig, hall]
  rfl

/-- The program yields what the configuration is resolved into. -/
theorem Resolves.ofConfig (h : c.Resolves o) : Client.ofConfig c = o := by
  cases h with
  | unknownNetwork hnodes hname =>
    have hnone : Network.ofName? c.network = none :=
      Option.eq_none_iff_forall_ne_some.2 fun n hn => hname n (Network.ofName?_eq_some_iff.1 hn)
    simp [Client.ofConfig, resolveNodes, hnodes, hnone, bind, Except.bind]
  | malformedId hnodes hbefore hentry =>
    simp [Client.ofConfig, resolveNodes_of_malformed hnodes hbefore hentry, bind, Except.bind]
  | @mismatch before after node l expected actual hnodes hledger hbefore hactual hexpected hne =>
    rw [hnodes.ofConfig, resolveLedger_eq_some_iff.2 hledger]
    have hvalid : ∀ x ∈ before, x.accountId.id.validateIfKnown (some l) = .ok () := by
      intro x hx
      refine EntityId.validateIfKnown_of_fits fun k hk => ?_
      obtain rfl := Option.some.inj hk
      exact hbefore x hx
    rw [forM_append_of_ok hvalid, List.forM_eq_forM, List.forM_cons,
      EntityId.validateIfKnown_of_mismatch hactual hexpected hne]
    rfl
  | noNodesAllowed hnodes hfits hmax => rw [hnodes.ofConfig_of_fits hfits, if_pos hmax]
  | @client nodes ledger? hnodes hledger hfits hmax =>
    have hsame : c.resolveLedger = ledger? :=
      Option.ext fun l => resolveLedger_eq_some_iff.trans (hledger l).symm
    rw [hnodes.ofConfig_of_fits hfits, if_neg hmax, hsame]

theorem ofConfig_eq_iff_resolves : Client.ofConfig c = o ↔ c.Resolves o := by
  constructor
  · rintro rfl
    obtain ⟨o, ho⟩ := c.exists_resolves
    rw [ho.ofConfig]
    exact ho
  · exact Resolves.ofConfig

/-- A client that is made has the configured nodes, and may take at least one of them. -/
theorem nodes_of_ofConfig {client : Client} (h : Client.ofConfig c = .ok client) :
    c.NodesAre client.nodes ∧ client.maxNodes = c.maxNodes ∧ c.maxNodes ≠ 0 := by
  cases ofConfig_eq_iff_resolves.1 h with
  | client hnodes hledger hfits hmax => exact ⟨hnodes, rfl, hmax⟩

end ClientConfig

namespace Client

/-- **Which client a configuration makes is decided exactly.**  A configuration makes what it is
resolved into, and nothing else.  So the network is unknown if and only if no nodes are listed and
it is none of those known by name.  A client that is made has the nodes that are listed, with their
addresses and letters, or those known of its network, and the ledger that is given or that of the
network; and every id of a node with letters passes on the ledger of the client, if it has one. -/
theorem ofConfig_exact (c : ClientConfig) :
    (∀ o, Client.ofConfig c = o ↔ c.Resolves o) ∧
    (Client.ofConfig c = .error (.unknownNetwork c.network) ↔
      c.nodes = [] ∧ ∀ n : Network, c.network ≠ n.name) ∧
    ∀ client, Client.ofConfig c = .ok client →
      c.NodesAre client.nodes ∧ (∀ l, client.ledgerId = some l ↔ c.LedgerIs l) ∧
      ∀ node ∈ client.nodes, node.accountId.id.checksum.isSome → client.ledgerId.isSome →
        client.validateChecksum node.accountId.id = .ok () := by
  refine ⟨fun o => ClientConfig.ofConfig_eq_iff_resolves, ?_, ?_⟩
  · rw [ClientConfig.ofConfig_eq_iff_resolves]
    constructor
    · intro h
      cases h with
      | unknownNetwork hnodes hname => exact ⟨hnodes, hname⟩
    · rintro ⟨hnodes, hname⟩
      exact .unknownNetwork hnodes hname
  · intro client h
    cases ClientConfig.ofConfig_eq_iff_resolves.1 h with
    | client hnodes hledger hfits hmax =>
      refine ⟨hnodes, hledger, fun node hnode _ hknown => ?_⟩
      obtain ⟨l, hl⟩ := Option.isSome_iff_exists.1 hknown
      have hvalid := (hfits l ((hledger l).1 hl) node hnode).validateChecksum
      rwa [← hl] at hvalid

end Client

end LedgerKit
