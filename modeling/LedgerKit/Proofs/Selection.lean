import LedgerKit.Proofs.FreezeLaw
import LedgerKit.Proofs.Resolution
import LedgerKit.Proofs.Single

/-!
# Freezing for the nodes of a client

A client offers the first nodes of its configuration, as many as are allowed; freezing then takes
each entity once.  The list is cut before entities are counted, so a node that is configured twice
leaves the transaction with fewer nodes than are allowed (`length_firstMentions_eq_iff`).  There is
always a node, since a configuration without nodes, or that allows none, makes no client.

* `Transaction.FrozenForClient` : what comes of freezing a transaction that has no nodes pinned.
* `Transaction.freeze_for_client` : this, and that with pinned nodes the client plays no part.
-/

namespace LedgerKit

namespace Transaction

variable {B : Type}

/-! ### The nodes that are taken -/

/-- The accounts of the first nodes of a list, at most `max` of them. -/
def taken (nodes : List Node) (max : ℕ) : List AccountId := (nodes.take max).map Node.accountId

theorem length_taken (nodes : List Node) (max : ℕ) :
    (taken nodes max).length = min max nodes.length := by
  rw [taken, List.length_map, List.length_take]

theorem taken_ne_nil {nodes : List Node} {max : ℕ} (hnodes : nodes ≠ []) (hmax : max ≠ 0) :
    taken nodes max ≠ [] := by
  rw [← List.length_pos_iff, length_taken]
  have := List.length_pos_iff.2 hnodes
  omega

theorem length_firstMentions (nodes : List AccountId) :
    (firstMentions nodes).length = (nodes.map fun n => n.number).toFinset.card := by
  rw [firstMentions, ← distinctOn_eq_filter_zipIdx (fun n : AccountId => n.number),
    length_distinctOn (List.nodup_dedup _) fun _ => List.mem_dedup, List.card_toFinset]

theorem length_firstMentions_le (nodes : List AccountId) :
    (firstMentions nodes).length ≤ nodes.length := by
  have hlen : (nodes.map fun n => n.number).length = nodes.length := List.length_map _
  rw [length_firstMentions, ← hlen]
  exact List.toFinset_card_le _

/-- No mention is left out if and only if every entity is mentioned once. -/
theorem length_firstMentions_eq_iff (nodes : List AccountId) :
    (firstMentions nodes).length = nodes.length ↔ (nodes.map fun n => n.number).Nodup := by
  have hlen : (nodes.map fun n => n.number).length = nodes.length := List.length_map _
  rw [length_firstMentions, ← hlen]
  exact Multiset.toFinset_card_eq_card_iff_nodup.trans Multiset.coe_nodup

theorem firstMentions_ne_nil {nodes : List AccountId} (h : nodes ≠ []) :
    firstMentions nodes ≠ [] := by
  cases nodes with
  | nil => exact absurd rfl h
  | cons n nodes =>
    rw [firstMentions, ← distinctOn_eq_filter_zipIdx (fun n : AccountId => n.number)]
    exact List.cons_ne_nil _ _

/-! ### Freezing for them -/

variable [TransactionBody B]

theorem exists_of_render_error {body : B} {nodes : List AccountId} {err : TransactionError}
    (h : render body nodes = .error err) :
    ∃ n ∈ nodes, TransactionBody.toBytes body n = .error err := by
  induction nodes with
  | nil => simp [render] at h
  | cons node nodes ih =>
    simp only [render] at h
    split at h
    · next err' herr =>
      obtain rfl := Except.error.inj h
      exact ⟨node, List.mem_cons_self, herr⟩
    · cases hr : render body nodes with
      | error err' =>
        rw [hr] at h
        obtain rfl := Except.error.inj h
        obtain ⟨n, hn, herr⟩ := ih hr
        exact ⟨n, List.mem_cons_of_mem node hn, herr⟩
      | ok es => simp [hr, Except.map] at h

variable {t : Transaction B} {f : FrozenTransaction} {offered : List AccountId}

/-- If there is a candidate, that there is none can only be the error in writing the body. -/
theorem exists_of_noCandidateNodes (hne : t.candidates offered ≠ [])
    (h : (t.freezeWith offered).result = .error .noCandidateNodes) :
    ∃ n ∈ t.candidates offered, TransactionBody.toBytes t.body n = .error .noCandidateNodes := by
  cases hf : t.frozen with
  | some f => simp [freezeWith_of_frozen hf] at h
  | none =>
    obtain ⟨hnil, -⟩ | ⟨-, err, hr, he⟩ | ⟨-, f, -, he⟩ := freezeWith_cases hf offered
    · exact absurd hnil hne
    · obtain rfl : err = .noCandidateNodes := by simpa [he] using h
      exact exists_of_render_error hr
    · simp [he] at h

/-- A draft with a candidate is frozen if and only if its body can be written for all of them. -/
theorem freezeWith_isOk_iff (hf : t.frozen = none) (hne : t.candidates offered ≠ []) :
    (∃ f, (t.freezeWith offered).result = .ok f) ↔
      ∀ n ∈ t.candidates offered, ∃ bytes, TransactionBody.toBytes t.body n = .ok bytes := by
  constructor
  · rintro ⟨f, hok⟩ n hn
    rw [← nodes_of_freezeWith hf hok] at hn
    obtain ⟨e, he, rfl⟩ := List.mem_map.1 hn
    exact ⟨e.body, written_of_freezeWith hf hok e he⟩
  · intro hwrites
    obtain ⟨f, hok, -⟩ := (freezeLaw_freezeWith hf offered).stored hne hwrites
    exact ⟨f, hok⟩

omit [TransactionBody B] in
theorem candidates_of_not_pinned (h : t.pinned = none) (offered : List AccountId) :
    t.candidates offered = firstMentions offered := by
  rw [candidates_eq_firstMentions, h, Option.getD_none]

omit [TransactionBody B] in
theorem nodes_of_extends {g : FrozenTransaction} (h : f.Extends g) : g.nodes = f.nodes := by
  have hnodes : ∀ x : FrozenTransaction,
      x.nodes = (x.envelopes.map Envelope.slot).map Prod.fst := by
    intro x
    simp [FrozenTransaction.nodes, Envelope.slot]
  rw [hnodes, hnodes, h.slots]

/-- The nodes that a draft is frozen for stay, whatever is called and offered later. -/
theorem nodes_of_run_freezeWith (hf : t.frozen = none)
    (hok : (t.freezeWith offered).result = .ok f) (calls : List (Call B))
    (others : List AccountId) :
    ∃ g, ((t.freezeWith offered).state.run calls).freezeWith others =
        .ok ((t.freezeWith offered).state.run calls) g ∧ g.nodes = f.nodes := by
  rw [(freezeWith_ok hf hok).2.2]
  obtain ⟨g, hg, hfg⟩ := run_of_frozen (t := { t with frozen := some f }) rfl calls
  exact ⟨g, freezeWith_of_frozen (by rw [hg]) _, nodes_of_extends hfg⟩

/-- What comes of freezing `t` for the first `max` of some nodes.  A transaction that is frozen
already stays as it is. -/
structure FrozenForClient (t : Transaction B) (nodes : List Node) (max : ℕ)
    (o : Outcome (Transaction B) FrozenTransaction) : Prop where
  /-- That there is no node can only be the error in writing the body for a node. -/
  no_node : o.result = .error .noCandidateNodes → ∃ n ∈ firstMentions (taken nodes max),
    TransactionBody.toBytes t.body n = .error .noCandidateNodes
  /-- A draft is frozen if and only if its body can be written for the entities that are taken. -/
  freezes_iff : t.frozen = none → ((∃ f, o.result = .ok f) ↔
    ∀ n ∈ firstMentions (taken nodes max), ∃ bytes, TransactionBody.toBytes t.body n = .ok bytes)
  /-- Then it has an envelope for each of these entities, in the order of the configuration: for
  one at least, for as many as are allowed and there at most, and for so many if and only if no
  entity is taken twice. -/
  nodes_eq : t.frozen = none → ∀ f, o.result = .ok f →
    f.nodes = firstMentions (taken nodes max) ∧ 1 ≤ f.nodes.length ∧
    f.nodes.length ≤ min max nodes.length ∧ (f.nodes.length = min max nodes.length ↔
      ((taken nodes max).map fun n => n.number).Nodup)
  /-- Whatever is called after that, no other client changes them. -/
  later : t.frozen = none → ∀ f, o.result = .ok f → ∀ (calls : List (Call B)) (other : Client),
    ∃ g, (o.state.run calls).freezeWith other.selectNodes = .ok (o.state.run calls) g ∧
      g.nodes = f.nodes
  /-- A frozen transaction stays as it is. -/
  frozen : ∀ f, t.frozen = some f → o = .ok t f

theorem frozenForClient_freezeWith {nodes : List Node} {max : ℕ} (hp : t.pinned = none)
    (hnodes : nodes ≠ []) (hmax : max ≠ 0) :
    FrozenForClient t nodes max (t.freezeWith (taken nodes max)) := by
  have hcand := candidates_of_not_pinned hp (taken nodes max)
  have hne : t.candidates (taken nodes max) ≠ [] :=
    hcand ▸ firstMentions_ne_nil (taken_ne_nil hnodes hmax)
  constructor
  case no_node => exact hcand ▸ exists_of_noCandidateNodes hne
  case freezes_iff => exact fun hf => hcand ▸ freezeWith_isOk_iff hf hne
  case nodes_eq =>
    intro hf f hok
    rw [nodes_of_freezeWith hf hok, ← length_taken]
    refine ⟨hcand, List.length_pos_iff.2 hne, ?_, ?_⟩ <;> rw [hcand]
    · exact length_firstMentions_le _
    · exact length_firstMentions_eq_iff _
  case later => exact fun hf f hok calls other => nodes_of_run_freezeWith hf hok calls _
  case frozen => exact fun f hf => freezeWith_of_frozen hf _

/-- **Freezing for a client.**  A client that was made from a configuration offers a transaction
without pinned nodes the first of the configured nodes, and there is one at least; so freezing does
not fail for want of a node, and takes each entity of them once.  A transaction that has its nodes
pinned is frozen alike for every client. -/
theorem freeze_for_client {c : ClientConfig} {client : Client}
    (h : Client.ofConfig c = .ok client) (t : Transaction B) :
    (t.pinned = none → ∃ nodes, c.NodesAre nodes ∧
      FrozenForClient t nodes c.maxNodes.toNat (t.freezeWith client.selectNodes)) ∧
    (t.pinned ≠ none → ∀ other : Client,
      t.freezeWith client.selectNodes = t.freezeWith other.selectNodes) := by
  obtain ⟨hnodes, hsame, hmax⟩ := ClientConfig.nodes_of_ofConfig h
  refine ⟨fun hp => ⟨client.nodes, hnodes, ?_⟩, fun hp other => ?_⟩
  · rw [Client.selectNodes, hsame]
    have hmax : c.maxNodes.toNat ≠ 0 := fun hzero => hmax (UInt64.toNat_inj.1 hzero)
    exact frozenForClient_freezeWith hp hnodes.ne_nil hmax
  · obtain ⟨pinned, hpinned⟩ := Option.ne_none_iff_exists'.1 hp
    exact freezeWith_of_pinned hpinned _ _

/-- A private network of four nodes, two of which are one account; the letters of one are given. -/
def soloConfig : ClientConfig where
  network := "solo"
  ledgerId := some ⟨[3]⟩
  nodes := [⟨"a:1", "0.0.9"⟩, ⟨"b:1", "0.0.123-xtugx"⟩, ⟨"c:1", "0.0.123"⟩, ⟨"d:1", "0.0.7"⟩]
  maxNodes := 3

/-- The client for this network. -/
def soloClient : Client where
  network := "solo"
  ledgerId := some ⟨[3]⟩
  nodes := [⟨"a:1", .ofNumbers 0 0 9⟩,
    ⟨"b:1", ⟨⟨⟨0, 0, 123⟩, some (.ofDigits 23 19 20 6 23)⟩⟩⟩, ⟨"c:1", .ofNumbers 0 0 123⟩,
    ⟨"d:1", .ofNumbers 0 0 7⟩]
  maxNodes := 3

theorem freeze_for_client_solo :
    Client.ofConfig soloConfig = .ok soloClient ∧
    (∃ nodes, soloConfig.NodesAre nodes ∧ FrozenForClient { body := (⟨[7]⟩ : Memo) } nodes 3
      (Transaction.freezeWith { body := (⟨[7]⟩ : Memo) } soloClient.selectNodes)) ∧
    ∀ other : Client,
      Transaction.freezeWith { body := (⟨[7]⟩ : Memo), pinned := some [.ofNumbers 0 0 5] }
          soloClient.selectNodes =
        Transaction.freezeWith { body := (⟨[7]⟩ : Memo), pinned := some [.ofNumbers 0 0 5] }
          other.selectNodes := by
  have hclient : Client.ofConfig soloConfig = .ok soloClient := by decide +kernel
  exact ⟨hclient, (freeze_for_client hclient _).1 rfl,
    (freeze_for_client hclient _).2 (Option.some_ne_none _)⟩

/-- Three nodes are allowed, but the second and the third are one account. -/
example : (Transaction.freezeWith { body := (⟨[7]⟩ : Memo) } soloClient.selectNodes).result.map
    (fun f => f.envelopes.map Envelope.body) = .ok [[7, 9], [7, 123]] := by
  decide +kernel

end Transaction

end LedgerKit
