import LedgerKit.Id.Distinct
import LedgerKit.Transaction.Frozen

/-!
# Transactions

A transaction begins as a draft, whose body can be edited and whose nodes can be pinned.  Freezing
writes the body for every node and fixes it; after that only signatures are added, and every further
freeze finds the transaction as it is.

* `freezeWith` takes the pinned nodes or, if none were pinned, those that are offered; `freezeFrom`
  asks a selector for them.
* `signSingle` and `addSignature` need a transaction for exactly one node, and freeze it first.
-/

namespace LedgerKit

/-- Bodies that can be written for a node. -/
class TransactionBody (B : Type) where
  /-- The bytes of the body for a node. -/
  toBytes : B → AccountId → Except TransactionError Bytes

/-- A transaction with a body of type `B`. -/
structure Transaction (B : Type) where
  /-- What the transaction says. -/
  body : B
  /-- The nodes it is meant for, if that was decided. -/
  pinned : Option (List AccountId) := none
  /-- The bodies and signatures, once it is frozen. -/
  frozen : Option FrozenTransaction := none

namespace Transaction

variable {B : Type}

/-- The transaction is frozen. -/
def isFrozen (t : Transaction B) : Bool := t.frozen.isSome

/-- The nodes of the envelopes or, in a draft, the pinned ones. -/
def nodes? (t : Transaction B) : Option (List AccountId) :=
  match t.frozen with
  | some f => some f.nodes
  | none => t.pinned

/-- A draft can be changed. -/
def editWith (t : Transaction B) (change : Transaction B → Transaction B) :
    Outcome (Transaction B) Unit :=
  match t.frozen with
  | some _ => .fail t .frozen
  | none => .ok (change t) ()

/-- Edits the body of a draft. -/
def editBody (t : Transaction B) (edit : B → B) : Outcome (Transaction B) Unit :=
  t.editWith fun t => { t with body := edit t.body }

/-- Pins the nodes of a draft. -/
def setNodes (t : Transaction B) (nodes : List AccountId) : Outcome (Transaction B) Unit :=
  t.editWith fun t => { t with pinned := some nodes }

/-- Freezing would ask for nodes: the transaction is a draft and has none pinned. -/
def asksForNodes (t : Transaction B) : Bool := t.frozen.isNone && t.pinned.isNone

/-- How many different nodes are pinned. -/
def pinnedCount (t : Transaction B) : Nat :=
  (distinctOn (fun n => n.number) (t.pinned.getD [])).length

/-- An operation on the frozen transaction; on a draft, nothing. -/
def onFrozen? {α : Type} (t : Transaction B)
    (op : FrozenTransaction → Outcome FrozenTransaction α) : Option (Outcome (Transaction B) α) :=
  t.frozen.map fun f => (op f).within fun f => { t with frozen := some f }

section

variable [TransactionBody B]

/-- The envelopes of a body for some nodes, or the first error in writing it. -/
def render (body : B) : List AccountId → Except TransactionError (List Envelope)
  | [] => .ok []
  | node :: nodes =>
    match TransactionBody.toBytes body node with
    | .error e => .error e
    | .ok bytes => (render body nodes).map (⟨node, bytes, .empty⟩ :: ·)

theorem map_node_render {body : B} {nodes : List AccountId} {es : List Envelope}
    (h : render body nodes = .ok es) : es.map Envelope.node = nodes := by
  induction nodes generalizing es with
  | nil =>
    cases h
    rfl
  | cons node nodes ih =>
    simp only [render] at h
    split at h
    · cases h
    · cases hr : render body nodes with
      | error e => simp [hr, Except.map] at h
      | ok fs =>
        simp only [hr, Except.map, Except.ok.injEq] at h
        subst h
        simp [ih hr]

theorem nodup_render {body : B} {nodes : List AccountId} {es : List Envelope}
    (h : render body (distinctOn (fun n => n.number) nodes) = .ok es) :
    (es.map fun e => e.node.number).Nodup := by
  have := nodup_map_distinctOn (fun n : AccountId => n.number) nodes
  rw [← map_node_render h, List.map_map] at this
  exact this

/-- Freezes a draft for the pinned nodes or, if none were pinned, for those offered; each node once,
in the order of first mention.  A frozen transaction stays as it is. -/
def freezeWith (t : Transaction B) (offered : List AccountId) :
    Outcome (Transaction B) FrozenTransaction :=
  match t.frozen with
  | some f => .ok t f
  | none =>
    let nodes := t.pinned.getD offered
    if nodes.isEmpty then .fail t .noCandidateNodes
    else
      match h : render t.body (distinctOn (fun n => n.number) nodes) with
      | .error e => .fail t e
      | .ok es =>
        let f : FrozenTransaction := ⟨es, nodup_render h⟩
        ⟨.ok f, { t with frozen := some f }, [.frozen es.length]⟩

/-- Freezes a draft for its pinned nodes. -/
def freeze (t : Transaction B) : Outcome (Transaction B) FrozenTransaction := t.freezeWith []

/-- Freezes a draft for its pinned nodes or else for those of a selector.  The selector may change
when it is asked, and it is not asked unless its nodes are needed. -/
def freezeFrom {σ : Type} (t : Transaction B) (select : σ → List AccountId × σ) (s : σ) :
    Outcome (Transaction B) FrozenTransaction × σ :=
  if t.asksForNodes then
    let (offered, s) := select s
    (t.freezeWith offered, s)
  else (t.freezeWith [], s)

/-- An operation on the envelope of a transaction for one node, which is frozen if need be.  A draft
for another number of nodes stays a draft. -/
def onSingle {α : Type} (t : Transaction B) (op : Envelope → Outcome Signatures α) :
    Outcome (Transaction B) α :=
  if t.isFrozen = false ∧ t.pinnedCount ≠ 1 then .fail t (.ambiguousNodes t.pinnedCount)
  else
    t.freeze.andThen fun f t =>
      match f.envelopes, f.at? 0 op with
      | [_], some o => o.within fun f => { t with frozen := some f }
      | es, _ => .fail t (.ambiguousNodes es.length)

/-- Signs the body for the only node. -/
def signSingle (t : Transaction B) (signer : Signer) : Outcome (Transaction B) Signature :=
  t.onSingle fun e =>
    (e.signWith signer).report fun _ => .singleSigned e.node.number signer.publicKey

/-- Records a signature of the body for the only node. -/
def addSignature (t : Transaction B) (key : PublicKey) (s : Signature) :
    Outcome (Transaction B) Unit :=
  t.onSingle fun e => (e.insert key s).map fun _ => ()

end

end Transaction

end LedgerKit
