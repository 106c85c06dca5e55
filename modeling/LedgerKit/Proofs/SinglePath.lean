import LedgerKit.Proofs.Listed
import LedgerKit.Proofs.Run
import LedgerKit.Proofs.Single

/-!
# One node, two ways

A transaction for one node can be signed by the operations for a single node, or by freezing it and
signing all of its envelopes.  The first count the nodes and then touch the only envelope; the
second do not count, and record a list of signatures only after they have looked at all of it.  On
one node they agree: `Transaction.single_path_agrees`.

* `FrozenTransaction.signWith_of_single`, `FrozenTransaction.addToAll_of_single` : what the
  operations on all envelopes do to a single one.
* `Transaction.onSingle_agrees` : an operation on all envelopes that does this agrees with the one
  on the only envelope, whether the transaction is frozen yet or not.
-/

namespace LedgerKit

/-! ### Outcomes that agree -/

namespace Outcome

variable {σ α β γ : Type}

/-- The operations leave the same state behind, and they fail with the same error or succeed both,
where the second answers `f a` if the first answers `a`. -/
def Agrees (f : α → β) (o : Outcome σ α) (o' : Outcome σ β) : Prop :=
  o'.result = o.result.map f ∧ o'.state = o.state

/-- What is done first, and succeeds, may be the same. -/
theorem Agrees.andThen {f : α → β} {o : Outcome σ γ} {next : γ → σ → Outcome σ α}
    {next' : γ → σ → Outcome σ β}
    (h : ∀ c, o.result = .ok c → Agrees f (next c o.state) (next' c o.state)) :
    Agrees f (o.andThen next) (o.andThen next') := by
  unfold Outcome.andThen
  cases hc : o.result with
  | error err => exact ⟨rfl, rfl⟩
  | ok c => exact h c hc

end Outcome

/-! ### All envelopes, when there is one -/

namespace FrozenTransaction

variable {f : FrozenTransaction} {e : Envelope}

theorem signWith_of_single (he : f.envelopes = [e]) (signer : Signer) :
    (f.signWith signer).result = (e.signWith signer).result.map (fun s => [s]) ∧
      (f.signWith signer).state.envelopes =
        [e.withSignatures (e.signWith signer).state] := by
  rw [signWith, Outcome.result_report, Outcome.state_report]
  change (signEach signer f.envelopes).result = _ ∧ (signEach signer f.envelopes).state = _
  rw [he]
  simp only [signEach]
  split
  · next err herr => simp [herr, Except.map]
  · next s hs => simp [hs, Except.map]

/-- The list of one signature is collected if the envelope accepts it, and is refused otherwise. -/
theorem collect_of_single (he : f.envelopes = [e]) {node : AccountId}
    (hn : e.node.number = node.number) (key : PublicKey) (s : Signature) :
    (e.Accepts key s ∧
      f.collect key [(node, s)] .empty = .ok (SortedMap.empty.insert node.number s)) ∨
    (¬ e.Accepts key s ∧
      f.collect key [(node, s)] .empty = .error (.recorded node.number)) := by
  have henvelope : f.envelope? node.number = some e := by simp [envelope?, he, hn]
  simp only [collect, henvelope, SortedMap.get?_empty, Envelope.Accepts]
  cases hr : e.signatures.get? key with
  | none => simp
  | some r => by_cases hrs : r = s <;> simp [hrs]

theorem addToAll_of_single (he : f.envelopes = [e]) {node : AccountId}
    (hn : e.node.number = node.number) (key : PublicKey) (s : Signature) :
    (f.addToAll key [(node, s)]).result = (e.insert key s).result.map (fun _ => ()) ∧
      (f.addToAll key [(node, s)]).state.envelopes =
        [e.withSignatures (e.insert key s).state] := by
  unfold addToAll
  obtain ⟨hacc, hc⟩ | ⟨hrefused, hc⟩ := collect_of_single he hn key s
  · obtain ⟨⟨new, hnew⟩, -⟩ := Envelope.insert_ok hacc
    obtain ⟨o, ho, hres, -, hstate⟩ :=
      onNode_eq_some (f := f) (e := e) (by simp [he]) fun e => e.insert key s
    rw [hn] at ho
    have hentries : (SortedMap.empty.insert node.number s).entries = [(node.number, s)] := rfl
    rw [hc]
    simp only [hentries, insertEach_cons_of_ok ho (hres.trans hnew), hnew]
    exact ⟨rfl, by simp [insertEach, hstate, he]⟩
  · rw [hc, Envelope.insert_error hrefused]
    exact ⟨rfl, he⟩

end FrozenTransaction

namespace Transaction

variable {B : Type} {t : Transaction B} {n : EntityNumber}

/-- The node is the only candidate: in a draft all pinned nodes are this one, and there is one; in a
frozen transaction it is the node of the only envelope. -/
def OnlyFor (t : Transaction B) (n : EntityNumber) : Prop :=
  match t.frozen with
  | none => ∃ nodes, t.pinned = some nodes ∧ nodes ≠ [] ∧ ∀ m ∈ nodes, m.number = n
  | some f => ∃ e, f.envelopes = [e] ∧ e.node.number = n

theorem OnlyFor.distinctPinned (h : t.OnlyFor n) (hdraft : t.frozen = none) :
    t.distinctPinned = 1 := by
  rw [OnlyFor, hdraft] at h
  obtain ⟨nodes, hp, hne, hall⟩ := h
  rw [Transaction.distinctPinned, hp, Option.getD_some, Finset.card_eq_one]
  refine ⟨n, Finset.eq_singleton_iff_nonempty_unique_mem.2 ⟨by simpa using hne, ?_⟩⟩
  intro k hk
  obtain ⟨m, hm, rfl⟩ := List.mem_map.1 (List.mem_toFinset.1 hk)
  exact hall m hm

variable [TransactionBody B]

/-- An operation on all envelopes of a transaction, which is frozen first if it is a draft. -/
def freezeThen {α : Type} (t : Transaction B)
    (op : FrozenTransaction → Outcome FrozenTransaction α) : Outcome (Transaction B) α :=
  t.freeze.andThen fun f t => (op f).within fun f => { t with frozen := some f }

/-- Once it is frozen, a transaction that is only for a node has one envelope, which is for it. -/
theorem OnlyFor.envelope (h : t.OnlyFor n) {f : FrozenTransaction}
    (hf : t.freeze.result = .ok f) : ∃ e, f.envelopes = [e] ∧ e.node.number = n := by
  cases hfrozen : t.frozen with
  | some g =>
    rw [freeze, freezeWith_of_frozen hfrozen] at hf
    obtain rfl : g = f := Except.ok.inj hf
    rw [OnlyFor, hfrozen] at h
    exact h
  | none =>
    have hcount : t.pinnedCount = 1 := t.distinctPinned_eq ▸ h.distinctPinned hfrozen
    obtain ⟨node, rest, hp, hone⟩ := candidates_of_pinnedCount hcount
    have hnodes : f.envelopes.map Envelope.node = [node] :=
      (nodes_of_freezeWith hfrozen hf).trans hone
    obtain ⟨e, he, rfl⟩ := List.map_eq_singleton_iff.1 hnodes
    rw [OnlyFor, hfrozen] at h
    obtain ⟨nodes, hp', -, hall⟩ := h
    obtain rfl : nodes = e.node :: rest := Option.some.inj (hp'.symm.trans hp)
    exact ⟨e, he, hall e.node List.mem_cons_self⟩

/-- Two operations that do the same to one envelope agree, also if the transaction has to be frozen
for them. -/
theorem onSingle_agrees {α β : Type} {op : Envelope → Outcome Signatures α}
    {opAll : FrozenTransaction → Outcome FrozenTransaction β} {answer : α → β} (h : t.OnlyFor n)
    (hop : ∀ (f : FrozenTransaction) (e : Envelope), f.envelopes = [e] → e.node.number = n →
      (opAll f).result = (op e).result.map answer ∧
        (opAll f).state.envelopes = [e.withSignatures (op e).state]) :
    Outcome.Agrees answer (t.onSingle op) (t.freezeThen opAll) := by
  have hone : t.isFrozen = true ∨ t.pinnedCount = 1 := by
    cases hfrozen : t.frozen with
    | some g => exact .inl (by simp [isFrozen, hfrozen])
    | none => exact .inr (t.distinctPinned_eq ▸ h.distinctPinned hfrozen)
  rw [onSingle_eq op hone]
  refine Outcome.Agrees.andThen fun f hf => ?_
  obtain ⟨e, he, hn⟩ := h.envelope hf
  obtain ⟨hres, hstate⟩ := hop f e he hn
  obtain ⟨g, hg, ho⟩ := onOnly_of_single op t.freeze.state he
  -- both leave the frozen transaction with the same one envelope
  have hsame : (opAll f).state = g := FrozenTransaction.eq_of_envelopes (hstate.trans hg.symm)
  rw [ho, ← hsame]
  exact ⟨hres, rfl⟩

/-- **The path for one node and the path for all nodes agree.**  On a transaction that is only for
one node, be it a draft or frozen, signing the single body comes to the same as freezing the
transaction and signing all bodies: both fail with the same error, or the one answers a signature
and the other the list of this signature; and the transaction is the same afterwards.  So does
recording a signature made elsewhere, and recording it in a list for the node. -/
theorem single_path_agrees (t : Transaction B) (node : AccountId) (h : t.OnlyFor node.number)
    (signer : Signer) (key : PublicKey) (s : Signature) :
    Outcome.Agrees (fun s => [s]) (t.signSingle signer) (t.freezeThen fun f => f.signWith signer) ∧
      Outcome.Agrees id (t.addSignature key s)
        (t.freezeThen fun f => f.addToAll key [(node, s)]) := by
  constructor
  · refine onSingle_agrees h fun f e he _ => ?_
    rw [Outcome.result_report, Outcome.state_report]
    exact FrozenTransaction.signWith_of_single he signer
  · refine onSingle_agrees h fun f e he hn => ?_
    obtain ⟨hres, hstate⟩ := FrozenTransaction.addToAll_of_single he hn key s
    refine ⟨?_, hstate⟩
    rw [hres, Except.map_id]
    rfl

/-- A draft in which one node is pinned twice, once with letters. -/
def Memo.forOne : Transaction Memo where
  body := ⟨[7]⟩
  pinned := some [⟨⟨⟨0, 0, 3⟩, some ⟨7, by decide⟩⟩⟩, .ofNumbers 0 0 3]

/-- A signer whose signature is the number that the body is. -/
def Memo.signer : Signer where
  publicKey := ⟨.replicate 32 5⟩
  sign body := ⟨.ofNatBE 64 (Bytes.bigEndian body)⟩

theorem single_path_agrees_memo :
    Memo.forOne.OnlyFor ⟨0, 0, 3⟩ ∧
    Outcome.Agrees (fun s => [s]) (Memo.forOne.signSingle Memo.signer)
      (Memo.forOne.freezeThen fun f => f.signWith Memo.signer) ∧
    Outcome.Agrees id (Memo.forOne.addSignature Memo.signer.publicKey ⟨.replicate 64 9⟩)
      (Memo.forOne.freezeThen fun f =>
        f.addToAll Memo.signer.publicKey [(.ofNumbers 0 0 3, ⟨.replicate 64 9⟩)]) := by
  have honly : Memo.forOne.OnlyFor ⟨0, 0, 3⟩ :=
    ⟨_, rfl, List.cons_ne_nil _ _, by decide⟩
  exact ⟨honly, single_path_agrees Memo.forOne (.ofNumbers 0 0 3) honly Memo.signer
    Memo.signer.publicKey ⟨.replicate 64 9⟩⟩

end Transaction

end LedgerKit
