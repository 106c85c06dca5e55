import LedgerKit.Proofs.Freeze

/-!
# Runs of a transaction

A `Transaction.Call` is one call on a transaction, with its arguments, and `Transaction.run` makes a
list of calls in turn.  A call that fails still counts: the run goes on with the state that the call
left behind.

* `Transaction.perform_of_frozen` : whatever is called, a frozen transaction stays frozen, keeps its
  body and only gains signatures.
* `Transaction.perform_of_draft` : a draft is frozen only by a call that freezes it, and then holds
  what that freeze stored, perhaps with a signature more.
* `Transaction.frozen_for_good` : what follows for a whole run.
-/

namespace LedgerKit

namespace Transaction

variable {B : Type}

/-- The calls on a transaction with a body of type `B`.  The last four are calls on the frozen
transaction, the last two of them on its envelope at a place; a draft has none to call. -/
inductive Call (B : Type) where
  /-- Edit the body. -/
  | editBody (edit : B → B)
  /-- Pin the nodes. -/
  | setNodes (nodes : List AccountId)
  /-- Freeze for the pinned nodes. -/
  | freeze
  /-- Freeze for the pinned nodes or those that a selector offers. -/
  | freezeWith (offered : List AccountId)
  /-- Sign the body for the only node. -/
  | signSingle (signer : Signer)
  /-- Record a signature of the body for the only node. -/
  | addSignature (key : PublicKey) (s : Signature)
  /-- Sign all bodies. -/
  | signAll (signer : Signer)
  /-- Record a list of signatures. -/
  | addToAll (key : PublicKey) (list : List (AccountId × Signature))
  /-- Record a signature in one envelope. -/
  | insertAt (i : ℕ) (key : PublicKey) (s : Signature)
  /-- Sign the body in one envelope. -/
  | signAt (i : ℕ) (signer : Signer)

/-- The nodes that a call offers for freezing. -/
def Call.offered : Call B → List AccountId
  | .freezeWith offered => offered
  | _ => []

/-- An operation that is possible on a frozen transaction only, without its answer. -/
def whenFrozen {α : Type} (t : Transaction B)
    (op : FrozenTransaction → Option (Outcome FrozenTransaction α)) :
    Outcome (Transaction B) Unit :=
  match t.frozen.bind op with
  | none => .ok t ()
  | some o => (o.within fun f => { t with frozen := some f }).map fun _ => ()

variable [TransactionBody B]

/-- What a call amounts to, without its answer. -/
def perform (t : Transaction B) : Call B → Outcome (Transaction B) Unit
  | .editBody edit => t.editBody edit
  | .setNodes nodes => t.setNodes nodes
  | .freeze => t.freeze.map fun _ => ()
  | .freezeWith offered => (t.freezeWith offered).map fun _ => ()
  | .signSingle signer => (t.signSingle signer).map fun _ => ()
  | .addSignature key s => t.addSignature key s
  | .signAll signer => t.whenFrozen fun f => some (f.signWith signer)
  | .addToAll key list => t.whenFrozen fun f => some (f.addToAll key list)
  | .insertAt i key s => t.whenFrozen fun f => f.at? i fun e => e.insert key s
  | .signAt i signer => t.whenFrozen fun f => f.at? i fun e => e.signWith signer

/-- The transaction after some calls. -/
def run (t : Transaction B) (calls : List (Call B)) : Transaction B :=
  calls.foldl (fun t c => (t.perform c).state) t

/-- The transaction after some calls since it was made with this body. -/
def history (body : B) (calls : List (Call B)) : Transaction B := run { body } calls

variable {t : Transaction B} {f : FrozenTransaction}

theorem run_append (t : Transaction B) (before after : List (Call B)) :
    t.run (before ++ after) = (t.run before).run after :=
  List.foldl_append

theorem history_append (body : B) (before after : List (Call B)) :
    history body (before ++ after) = (history body before).run after :=
  run_append _ before after

/-! ### One call -/

omit [TransactionBody B] in
theorem state_whenFrozen {α : Type} (h : t.frozen = some f)
    {op : FrozenTransaction → Option (Outcome FrozenTransaction α)}
    (hop : ∀ o, op f = some o → f.Extends o.state) :
    ∃ g, (t.whenFrozen op).state = { t with frozen := some g } ∧ f.Extends g := by
  unfold whenFrozen
  rw [h, Option.bind_some]
  cases ho : op f with
  | none => exact ⟨f, by rw [← h]; rfl, .refl f⟩
  | some o => exact ⟨o.state, rfl, hop o ho⟩

omit [TransactionBody B] in
theorem state_whenFrozen_of_draft {α : Type} (h : t.frozen = none)
    (op : FrozenTransaction → Option (Outcome FrozenTransaction α)) :
    (t.whenFrozen op).state = t := by
  unfold whenFrozen
  rw [h]
  rfl

omit [TransactionBody B] in
theorem state_onOnly {α : Type} {op : Envelope → Outcome Signatures α}
    (hop : ∀ e : Envelope, e.Extends (e.withSignatures (op e).state)) (h : t.frozen = some f) :
    ∃ g, (onOnly op f t).state = { t with frozen := some g } ∧ f.Extends g := by
  by_cases hn : f.envelopes.length = 1
  · obtain ⟨e, he⟩ := List.length_eq_one_iff.1 hn
    obtain ⟨g, hg, ho⟩ := onOnly_of_single op t he
    refine ⟨g, by rw [ho], ?_⟩
    rw [FrozenTransaction.Extends, he, hg]
    exact .cons (hop e) .nil
  · rw [onOnly_of_length_ne op t hn]
    exact ⟨f, by rw [← h]; rfl, .refl f⟩

/-- A frozen transaction stays frozen with its body, and its envelopes only gain signatures. -/
theorem perform_of_frozen (h : t.frozen = some f) (c : Call B) :
    ∃ g, (t.perform c).state = { t with frozen := some g } ∧ f.Extends g := by
  have hsame : t = { t with frozen := some f } := by rw [← h]
  cases c with
  | editBody edit =>
    refine ⟨f, ?_, .refl f⟩
    rw [perform, editBody, editWith, h]
    exact hsame
  | setNodes nodes =>
    refine ⟨f, ?_, .refl f⟩
    rw [perform, setNodes, editWith, h]
    exact hsame
  | freeze =>
    refine ⟨f, ?_, .refl f⟩
    rw [perform, Outcome.state_map, freeze, freezeWith_of_frozen h]
    exact hsame
  | freezeWith offered =>
    refine ⟨f, ?_, .refl f⟩
    rw [perform, Outcome.state_map, freezeWith_of_frozen h]
    exact hsame
  | signSingle signer =>
    rw [perform, Outcome.state_map, signSingle, onSingle_of_frozen _ h]
    exact state_onOnly (fun e => Envelope.extends_report signer _) h
  | addSignature key s =>
    rw [perform, addSignature, onSingle_of_frozen _ h]
    exact state_onOnly (fun e => Envelope.extends_insert) h
  | signAll signer =>
    refine state_whenFrozen h fun o ho => ?_
    obtain rfl := Option.some.inj ho
    exact FrozenTransaction.extends_signWith signer
  | addToAll key list =>
    refine state_whenFrozen h fun o ho => ?_
    obtain rfl := Option.some.inj ho
    exact FrozenTransaction.extends_addToAll key list
  | insertAt i key s =>
    exact state_whenFrozen h fun o ho =>
      FrozenTransaction.extends_at? (fun e => Envelope.extends_insert) ho
  | signAt i signer =>
    exact state_whenFrozen h fun o ho =>
      FrozenTransaction.extends_at? (fun e => Envelope.extends_signWith signer) ho

theorem state_onSingle_of_draft {α : Type} {op : Envelope → Outcome Signatures α}
    (hop : ∀ e : Envelope, e.Extends (e.withSignatures (op e).state)) (h : t.frozen = none) :
    (t.onSingle op).state = t ∨ ∃ f g, (t.freezeWith []).result = .ok f ∧
      (t.onSingle op).state = { t with frozen := some g } ∧ f.Extends g := by
  by_cases hc : t.pinnedCount = 1
  · obtain ⟨node, -, -, hn⟩ := candidates_of_pinnedCount hc
    obtain ⟨err, -, ho⟩ | ⟨-, f, -, -, hf, ho⟩ := onSingle_of_node op h hn
    · exact .inl (by rw [ho]; rfl)
    · obtain ⟨g, hg, hfg⟩ := state_onOnly (t := { t with frozen := some f }) hop rfl
      exact .inr ⟨f, g, hf, by rw [ho]; exact hg, hfg⟩
  · exact .inl (by rw [onSingle_of_draft op h hc]; rfl)

theorem state_freezeWith_of_draft (h : t.frozen = none) (offered : List AccountId) :
    (t.freezeWith offered).state = t ∨ ∃ f, (t.freezeWith offered).result = .ok f ∧
      (t.freezeWith offered).state = { t with frozen := some f } := by
  obtain ⟨-, he⟩ | ⟨-, err, -, he⟩ | ⟨-, f, -, he⟩ := freezeWith_cases h offered
  · exact .inl (by rw [he]; rfl)
  · exact .inl (by rw [he]; rfl)
  · exact .inr ⟨f, by rw [he], by rw [he]⟩

/-- A draft that a call leaves frozen was frozen for the nodes it pinned or those that the call
offered, and holds what was stored then. -/
theorem perform_of_draft (h : t.frozen = none) (c : Call B) {g : FrozenTransaction}
    (hg : (t.perform c).state.frozen = some g) :
    ∃ f, (t.freezeWith c.offered).result = .ok f ∧
      (t.perform c).state = { t with frozen := some g } ∧ f.Extends g := by
  -- a call that leaves the draft as it is has not frozen it
  have hdraft : (t.perform c).state ≠ t := by
    intro he
    rw [he, h] at hg
    cases hg
  have hstored : ∀ f g', (t.freezeWith c.offered).result = .ok f →
      (t.perform c).state = { t with frozen := some g' } → f.Extends g' →
      ∃ f, (t.freezeWith c.offered).result = .ok f ∧
        (t.perform c).state = { t with frozen := some g } ∧ f.Extends g := by
    intro f g' hf hs hfg
    obtain rfl : g' = g := by simpa [hs] using hg
    exact ⟨f, hf, hs, hfg⟩
  cases c with
  | editBody edit => simp [perform, editBody, editWith, h] at hg
  | setNodes nodes => simp [perform, setNodes, editWith, h] at hg
  | freeze =>
    obtain hs | ⟨f, hf, hs⟩ := state_freezeWith_of_draft h []
    · exact absurd hs hdraft
    · exact hstored f f hf hs (.refl f)
  | freezeWith offered =>
    obtain hs | ⟨f, hf, hs⟩ := state_freezeWith_of_draft h offered
    · exact absurd hs hdraft
    · exact hstored f f hf hs (.refl f)
  | signSingle signer =>
    have hop : ∀ e : Envelope, e.Extends (e.withSignatures ((e.signWith signer).report fun _ =>
        .singleSigned e.node.number signer.publicKey).state) :=
      fun e => Envelope.extends_report signer _
    obtain hs | ⟨f, g', hf, hs, hfg⟩ := state_onSingle_of_draft hop h
    · exact absurd hs hdraft
    · exact hstored f g' hf hs hfg
  | addSignature key s =>
    have hop : ∀ e : Envelope, e.Extends (e.withSignatures
        ((e.insert key s).map fun _ => ()).state) := fun e => Envelope.extends_insert
    obtain hs | ⟨f, g', hf, hs, hfg⟩ := state_onSingle_of_draft hop h
    · exact absurd hs hdraft
    · exact hstored f g' hf hs hfg
  | signAll signer => exact absurd (state_whenFrozen_of_draft h _) hdraft
  | addToAll key list => exact absurd (state_whenFrozen_of_draft h _) hdraft
  | insertAt i key s => exact absurd (state_whenFrozen_of_draft h _) hdraft
  | signAt i signer => exact absurd (state_whenFrozen_of_draft h _) hdraft

/-! ### Any number of calls -/

theorem run_of_frozen (h : t.frozen = some f) (calls : List (Call B)) :
    ∃ g, t.run calls = { t with frozen := some g } ∧ f.Extends g := by
  induction calls generalizing t f with
  | nil => exact ⟨f, by rw [← h]; rfl, .refl f⟩
  | cons c calls ih =>
    -- the rest of the run starts from what the first call left
    obtain ⟨g, hg, hfg⟩ := perform_of_frozen h c
    obtain ⟨k, hk, hgk⟩ := ih (t := { t with frozen := some g }) rfl
    refine ⟨k, ?_, hfg.trans hgk⟩
    rw [← hk, ← hg]
    rfl

/-- **A transaction is frozen for good.**  Let `first` be the call that froze it.  In every state
after that, its envelopes have the nodes, the order and the bodies that freezing stored; writing the
body of the transaction for the node of an envelope yields the body in that envelope; and every
signature that an envelope holds in some state it holds in all later ones. -/
theorem frozen_for_good (body : B) (before : List (Call B)) (first : Call B)
    (mid after : List (Call B)) (hdraft : (history body before).isFrozen = false)
    (hfrozen : (history body (before ++ [first])).isFrozen = true) :
    ∃ stored g h : FrozenTransaction,
      ((history body before).freezeWith first.offered).result = .ok stored ∧
      (history body (before ++ first :: mid)).frozen = some g ∧
      (history body (before ++ first :: mid ++ after)).frozen = some h ∧
      g.envelopes.map Envelope.slot = stored.envelopes.map Envelope.slot ∧
      h.envelopes.map Envelope.slot = stored.envelopes.map Envelope.slot ∧
      (∀ e ∈ h.envelopes, TransactionBody.toBytes
        (history body (before ++ first :: mid ++ after)).body e.node = .ok e.body) ∧
      List.Forall₂ (fun e e' : Envelope => ∀ key s,
        e.signatures.get? key = some s → e'.signatures.get? key = some s)
        g.envelopes h.envelopes := by
  have hdraft : (history body before).frozen = none := by simpa [isFrozen] using hdraft
  obtain ⟨f, hf⟩ := Option.isSome_iff_exists.1 hfrozen
  rw [history_append] at hf
  obtain ⟨stored, hstored, hfirst, hext⟩ := perform_of_draft hdraft first hf
  obtain ⟨g, hg, hfg⟩ := run_of_frozen hf mid
  have hmid : history body (before ++ first :: mid) =
      { history body before with frozen := some g } := by
    change (history body before).run [first] = _ at hfirst
    rw [List.append_cons, history_append, history_append, hg, hfirst]
  obtain ⟨h, hh, hgh⟩ := run_of_frozen (t := history body (before ++ first :: mid)) (f := g)
    (by rw [hmid]) after
  have hafter : history body (before ++ first :: mid ++ after) =
      { history body before with frozen := some h } := by
    rw [history_append, hh, hmid]
  -- the nodes and bodies are those of the freeze, which wrote them from this body
  have hslots := ((hext.trans hfg).trans hgh).slots
  have hwritten : ∀ e ∈ h.envelopes, WrittenFrom (history body before).body e :=
    WrittenFrom.of_slots (written_of_freezeWith hdraft hstored) hslots
  refine ⟨stored, g, h, hstored, by rw [hmid], by rw [hafter], (hext.trans hfg).slots, hslots, ?_,
    hgh.imp fun e e' he => he.2⟩
  rw [hafter]
  exact hwritten

/-- A body that is a text of bytes, written before the last byte of the node's number. -/
structure Memo where
  /-- The text. -/
  text : Bytes

instance : TransactionBody Memo where
  toBytes memo node := .ok (memo.text ++ [node.number.num.toUInt8])

/-- A draft for two nodes, one of them pinned twice. -/
def Memo.drafting : List (Call Memo) :=
  [.setNodes [.ofNumbers 0 0 3, .ofNumbers 0 0 4, .ofNumbers 0 0 3],
    .editBody fun memo => ⟨memo.text ++ [8]⟩]

/-- The memo is signed for both nodes; then another signature under the same key is refused, and so
is an edit. -/
def Memo.signing : List (Call Memo) :=
  [.signAll ⟨⟨.replicate 32 5⟩, fun bs => ⟨.ofNatBE 64 (Bytes.bigEndian bs)⟩⟩,
    .insertAt 1 ⟨.replicate 32 5⟩ ⟨.replicate 64 9⟩, .editBody fun _ => ⟨[]⟩]

theorem frozen_for_good_memo :
    (history ⟨[7]⟩ Memo.drafting).isFrozen = false ∧
    (history ⟨[7]⟩ (Memo.drafting ++ [.freeze])).isFrozen = true ∧
    ∃ stored g h : FrozenTransaction,
      ((history ⟨[7]⟩ Memo.drafting).freezeWith []).result = .ok stored ∧
      (history ⟨[7]⟩ (Memo.drafting ++ .freeze :: Memo.signing)).frozen = some g ∧
      (history ⟨[7]⟩ (Memo.drafting ++ .freeze :: Memo.signing ++ [.freezeWith []])).frozen =
        some h ∧
      g.envelopes.map Envelope.slot = stored.envelopes.map Envelope.slot ∧
      h.envelopes.map Envelope.slot = stored.envelopes.map Envelope.slot ∧
      (∀ e ∈ h.envelopes, TransactionBody.toBytes
        (history ⟨[7]⟩ (Memo.drafting ++ .freeze :: Memo.signing ++ [.freezeWith []])).body e.node =
          .ok e.body) ∧
      List.Forall₂ (fun e e' : Envelope => ∀ key s,
        e.signatures.get? key = some s → e'.signatures.get? key = some s)
        g.envelopes h.envelopes := by
  have hdraft : (history ⟨[7]⟩ Memo.drafting).isFrozen = false := by decide +kernel
  have hfrozen : (history ⟨[7]⟩ (Memo.drafting ++ [.freeze])).isFrozen = true := by
    decide +kernel
  have hgood := frozen_for_good (⟨[7]⟩ : Memo) Memo.drafting Call.freeze Memo.signing
    [.freezeWith []] hdraft hfrozen
  have hoffered : (Call.freeze : Call Memo).offered = [] := rfl
  rw [hoffered] at hgood
  exact ⟨hdraft, hfrozen, hgood⟩

end Transaction

end LedgerKit
