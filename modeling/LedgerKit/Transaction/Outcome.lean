import LedgerKit.Id.Typed
import LedgerKit.Key.Public
import LedgerKit.Log

/-!
# Outcomes

An operation on a transaction has an `Outcome`: a result or an error, the state that it leaves
behind in either case, and the events that it reported, in order.
-/

namespace LedgerKit

/-! ### What can go wrong -/

/-- Why a transaction cannot be frozen, changed or signed. -/
inductive TransactionError where
  /-- It has this many nodes where one is needed. -/
  | ambiguousNodes (count : Nat)
  /-- There is no node to freeze it for. -/
  | noCandidateNodes
  /-- It is frozen and cannot be changed. -/
  | frozen
  /-- It has no body for this node. -/
  | unknownNode (node : EntityNumber)
  /-- Another signature under this key is there already. -/
  | signatureConflict (key : PublicKey)
  /-- The body cannot be written, for a reason of its own. -/
  | serialization (reason : String)
deriving DecidableEq

/-- The words for an error. -/
def TransactionError.message : TransactionError → String
  | .ambiguousNodes count => s!"transaction targets {count} nodes; sign each node's body separately"
  | .noCandidateNodes => "no candidate nodes to freeze against"
  | .frozen => "transaction is frozen"
  | .unknownNode node => s!"node {node} is not a candidate for this transaction"
  | .signatureConflict key => s!"a different signature from {key.toRawString} is already present"
  | .serialization reason => s!"failed to serialize transaction body: {reason}"

/-! ### What is reported -/

/-- What operations on a transaction report. -/
inductive TransactionEvent where
  /-- The transaction was frozen for this many nodes. -/
  | frozen (nodes : Nat)
  /-- A signature was recorded. -/
  | signatureAdded (node : EntityNumber) (signer : PublicKey)
  /-- The same signature was recorded before. -/
  | signaturePresent (node : EntityNumber) (signer : PublicKey)
  /-- A signature was refused because another one is recorded. -/
  | conflictRejected (node : EntityNumber) (signer : PublicKey)
  /-- The bodies of all nodes, this many, were signed. -/
  | allSigned (signer : PublicKey) (envelopes : Nat)
  /-- The body of the only node was signed. -/
  | singleSigned (node : EntityNumber) (signer : PublicKey)
deriving DecidableEq

/-- An event as it is logged. -/
def TransactionEvent.toLogLine : TransactionEvent → LogLine
  | .frozen nodes => ⟨.debug, "transaction frozen", [("nodes", s!"{nodes}")]⟩
  | .signatureAdded node signer =>
    ⟨.trace, "signature added", [("node", s!"{node}"), ("signer", signer.inspect)]⟩
  | .signaturePresent node signer =>
    ⟨.trace, "signature already present", [("node", s!"{node}"), ("signer", signer.inspect)]⟩
  | .conflictRejected node signer =>
    ⟨.warn, "rejected conflicting signature", [("node", s!"{node}"), ("signer", signer.inspect)]⟩
  | .allSigned signer envelopes =>
    ⟨.debug, "signed all node bodies", [("signer", signer.inspect), ("envelopes", s!"{envelopes}")]⟩
  | .singleSigned node signer =>
    ⟨.debug, "signed single-node transaction", [("node", s!"{node}"), ("signer", signer.inspect)]⟩

/-! ### What comes of an operation -/

/-- What an operation on a state `σ` amounts to. -/
structure Outcome (σ α : Type) where
  /-- The answer of the operation. -/
  result : Except TransactionError α
  /-- The state after it, whatever the answer. -/
  state : σ
  /-- What it reported. -/
  events : List TransactionEvent

namespace Outcome

variable {σ τ α β : Type}

/-- Nothing but an answer. -/
def ok (state : σ) (a : α) : Outcome σ α := ⟨.ok a, state, []⟩

/-- Nothing but an error. -/
def fail (state : σ) (e : TransactionError) : Outcome σ α := ⟨.error e, state, []⟩

/-- Applies a function to the answer. -/
def map (f : α → β) (o : Outcome σ α) : Outcome σ β := ⟨o.result.map f, o.state, o.events⟩

/-- The outcome for a larger state, of which the state is a part. -/
def within (put : τ → σ) (o : Outcome τ α) : Outcome σ α := ⟨o.result, put o.state, o.events⟩

/-- Goes on with another operation unless there is an error. -/
def andThen (o : Outcome σ α) (next : α → σ → Outcome σ β) : Outcome σ β :=
  match o.result with
  | .error e => ⟨.error e, o.state, o.events⟩
  | .ok a =>
    let n := next a o.state
    ⟨n.result, n.state, o.events ++ n.events⟩

/-- Reports one more event if there is no error. -/
def report (o : Outcome σ α) (event : α → TransactionEvent) : Outcome σ α :=
  o.andThen fun a s => ⟨.ok a, s, [event a]⟩

@[simp] theorem result_ok (s : σ) (a : α) : (ok s a).result = .ok a := rfl
@[simp] theorem state_ok (s : σ) (a : α) : (ok s a).state = s := rfl
@[simp] theorem events_ok (s : σ) (a : α) : (ok s a).events = [] := rfl
@[simp] theorem result_fail (s : σ) (e : TransactionError) :
    (fail s e : Outcome σ α).result = .error e := rfl
@[simp] theorem state_fail (s : σ) (e : TransactionError) :
    (fail s e : Outcome σ α).state = s := rfl
@[simp] theorem events_fail (s : σ) (e : TransactionError) :
    (fail s e : Outcome σ α).events = [] := rfl
@[simp] theorem state_map (f : α → β) (o : Outcome σ α) : (o.map f).state = o.state := rfl
@[simp] theorem events_map (f : α → β) (o : Outcome σ α) : (o.map f).events = o.events := rfl
@[simp] theorem state_within (put : τ → σ) (o : Outcome τ α) :
    (o.within put).state = put o.state := rfl

end Outcome

end LedgerKit
