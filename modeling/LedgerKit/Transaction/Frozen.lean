import LedgerKit.Transaction.Envelope

/-!
# Frozen transactions

A frozen transaction is a list of envelopes for different nodes.  All operations go through
`replace`, which keeps the nodes and bodies; what they change is the signatures, and a signature
that is recorded stays.

`addToAll` records the signatures of one key for several nodes at once.  It looks at all of them
before it records any, so it either takes the whole list or changes nothing.
-/

namespace LedgerKit

/-- A transaction whose bodies are fixed. -/
structure FrozenTransaction where
  /-- One envelope for each node. -/
  envelopes : List Envelope
  /-- No node has two. -/
  distinct : (envelopes.map fun e => e.node.number).Nodup

namespace FrozenTransaction

instance : DecidableEq FrozenTransaction := fun a b =>
  decidable_of_iff (a.envelopes = b.envelopes) (by cases a; cases b; simp)

/-- The nodes, in the order of the envelopes. -/
def nodes (f : FrozenTransaction) : List AccountId := f.envelopes.map Envelope.node

theorem nodup_of_slots {es fs : List Envelope} (h : es.map Envelope.slot = fs.map Envelope.slot)
    (d : (fs.map fun e => e.node.number).Nodup) : (es.map fun e => e.node.number).Nodup := by
  have : ∀ l : List Envelope,
      l.map (fun e => e.node.number) = (l.map Envelope.slot).map fun s => s.1.number := by
    intro l
    simp [Envelope.slot]
  rwa [this, h, ← this]

/-- The transaction with other signatures in its envelopes. -/
def replace (f : FrozenTransaction) (es : List Envelope)
    (h : es.map Envelope.slot = f.envelopes.map Envelope.slot) : FrozenTransaction :=
  ⟨es, nodup_of_slots h f.distinct⟩

/-- The place of the envelope for a node. -/
def place? (f : FrozenTransaction) (node : EntityNumber) : Option Nat :=
  f.envelopes.findIdx? fun e => e.node.number = node

/-- The envelope for a node. -/
def envelope? (f : FrozenTransaction) (node : EntityNumber) : Option Envelope :=
  f.envelopes.find? fun e => e.node.number = node

theorem slots_modify (es : List Envelope) (i : Nat) (s : Signatures) :
    (es.modify i fun e => e.withSignatures s).map Envelope.slot = es.map Envelope.slot := by
  induction es generalizing i with
  | nil => simp
  | cons e es ih => cases i <;> simp [ih]

/-- An operation on the envelope at a place; without an envelope there, nothing. -/
def at? {α : Type} (f : FrozenTransaction) (i : Nat) (op : Envelope → Outcome Signatures α) :
    Option (Outcome FrozenTransaction α) :=
  f.envelopes[i]?.map fun e =>
    (op e).within fun s => f.replace (f.envelopes.modify i fun e => e.withSignatures s)
      (slots_modify f.envelopes i s)

/-- Signs the bodies of a list in turn, up to the first conflict. -/
def signEach (signer : Signer) : List Envelope → Outcome (List Envelope) (List Signature)
  | [] => .ok [] []
  | e :: es =>
    let o := e.signWith signer
    let signed := e.withSignatures o.state
    match o.result with
    | .error err => ⟨.error err, signed :: es, o.events⟩
    | .ok s =>
      let r := signEach signer es
      ⟨r.result.map (s :: ·), signed :: r.state, o.events ++ r.events⟩

theorem slots_signEach (signer : Signer) (es : List Envelope) :
    (signEach signer es).state.map Envelope.slot = es.map Envelope.slot := by
  induction es with
  | nil => rfl
  | cons e es ih =>
    simp only [signEach]
    split <;> simp [ih]

/-- Signs all bodies in turn.  A conflict ends this; the bodies before it are signed then. -/
def signWith (f : FrozenTransaction) (signer : Signer) :
    Outcome FrozenTransaction (List Signature) :=
  let o := signEach signer f.envelopes
  (Outcome.mk o.result (f.replace o.state (slots_signEach signer f.envelopes)) o.events).report
    fun signatures => .allSigned signer.publicKey signatures.length

/-- Why a list of signatures is refused. -/
inductive Refusal where
  /-- A signature for a node that has no envelope. -/
  | unknownNode (node : EntityNumber)
  /-- Two different signatures for one node. -/
  | listedTwice
  /-- A signature other than the one recorded for the node. -/
  | recorded (node : EntityNumber)
deriving DecidableEq

/-- The error for a refused list. -/
def Refusal.error (key : PublicKey) : Refusal → TransactionError
  | .unknownNode node => .unknownNode node
  | .listedTwice => .signatureConflict key
  | .recorded _ => .signatureConflict key

/-- What is reported of a refused list. -/
def Refusal.events (key : PublicKey) : Refusal → List TransactionEvent
  | .recorded node => [.conflictRejected node key]
  | _ => []

/-- Collects the signatures of a list by node, in addition to those in `pending`, and refuses the
first that cannot be recorded. -/
def collect (f : FrozenTransaction) (key : PublicKey) :
    List (AccountId × Signature) → (pending : SortedMap EntityNumber Signature) →
      Except Refusal (SortedMap EntityNumber Signature)
  | [], pending => .ok pending
  | (node, s) :: rest, pending =>
    match f.envelope? node.number with
    | none => .error (.unknownNode node.number)
    | some e =>
      match pending.get? node.number with
      | some listed => if listed = s then f.collect key rest pending else .error .listedTwice
      | none =>
        match e.signatures.get? key with
        | none => f.collect key rest (pending.insert node.number s)
        | some recorded =>
          if recorded = s then f.collect key rest (pending.insert node.number s)
          else .error (.recorded node.number)

/-- Records the signatures of one key for some nodes, in turn. -/
def insertEach (key : PublicKey) :
    List (EntityNumber × Signature) → FrozenTransaction → Outcome FrozenTransaction Unit
  | [], f => .ok f ()
  | (node, s) :: rest, f =>
    match (f.place? node).bind fun i => f.at? i fun e => e.insert key s with
    | none => .fail f (.unknownNode node)
    | some o => o.andThen fun _ f => insertEach key rest f

/-- Records signatures of one key for the nodes they are listed with, all or none of them. -/
def addToAll (f : FrozenTransaction) (key : PublicKey) (list : List (AccountId × Signature)) :
    Outcome FrozenTransaction Unit :=
  match f.collect key list .empty with
  | .error r => ⟨.error (r.error key), f, r.events key⟩
  | .ok pending => insertEach key pending.entries f

/-- The keys that have signed every body, in ascending order. -/
def signers (f : FrozenTransaction) : List PublicKey :=
  match f.envelopes with
  | [] => []
  | e :: es => e.signatures.keys.filter fun k => es.all fun x => (x.signatures.get? k).isSome

/-- Every signature in every envelope is one of its body. -/
def verify (f : FrozenTransaction) : Bool := f.envelopes.all Envelope.verify

end FrozenTransaction

end LedgerKit
