import LedgerKit.Proofs.Freeze
import Mathlib.Data.Finset.Card

/-!
# The guard on a single node

`Transaction.signSingle` and `Transaction.addSignature` are for transactions with exactly one node.
In a draft the nodes are counted in the pinned list, in a frozen transaction by the envelopes;
`Transaction.SingleGuard` is the law that holds of both operations in both states.  A call that
fails leaves the transaction alone, also where it would have frozen it.
-/

namespace LedgerKit

namespace Transaction

variable {B : Type} [TransactionBody B] {t : Transaction B} {α : Type}

/-- The number of different entities that are pinned, none if no list was pinned. -/
def distinctPinned (t : Transaction B) : ℕ :=
  ((t.pinned.getD []).map fun n => n.number).toFinset.card

/-- The envelope after a signature was recorded. -/
def Holds (e e' : Envelope) (key : PublicKey) (s : Signature) : Prop :=
  e'.slot = e.slot ∧ ∀ k, e'.signatures.get? k = if k = key then some s else e.signatures.get? k

/-- The law of an operation that records the signature `sign body` under `key` on the only envelope
and answers `answer body`, where `body` is that of the envelope. -/
structure SingleGuard (t : Transaction B) (key : PublicKey) (sign : Bytes → Signature)
    (answer : Bytes → α) (o : Outcome (Transaction B) α) : Prop where
  /-- A draft needs one distinct pinned node. -/
  draft_ambiguous : t.frozen = none → t.distinctPinned ≠ 1 →
    o.result = .error (.ambiguousNodes t.distinctPinned)
  /-- A draft for one node fails with the error in writing its body, or it is frozen for that node
  alone and holds the signature and no other. -/
  draft_single : t.frozen = none → t.distinctPinned = 1 →
    ∃ node rest, t.pinned = some (node :: rest) ∧
      ((∃ err, TransactionBody.toBytes t.body node = .error err ∧ o.result = .error err) ∨
      ∃ bytes f e, TransactionBody.toBytes t.body node = .ok bytes ∧
        o.result = .ok (answer bytes) ∧ o.state = { t with frozen := some f } ∧
        f.envelopes = [e] ∧ Holds ⟨node, bytes, .empty⟩ e key (sign bytes))
  /-- A frozen transaction needs one envelope. -/
  frozen_ambiguous : ∀ f, t.frozen = some f → f.envelopes.length ≠ 1 →
    o.result = .error (.ambiguousNodes f.envelopes.length)
  /-- With one envelope there is a conflict exactly when it has another signature under the key;
  else the envelope holds the signature. -/
  frozen_single : ∀ f e, t.frozen = some f → f.envelopes = [e] →
    ((∃ r, e.signatures.get? key = some r ∧ r ≠ sign e.body) ∧
      o.result = .error (.signatureConflict key)) ∨
    ((∀ r, e.signatures.get? key = some r → r = sign e.body) ∧
      o.result = .ok (answer e.body) ∧ ∃ g e', o.state = { t with frozen := some g } ∧
        g.envelopes = [e'] ∧ Holds e e' key (sign e.body))
  /-- A call that fails changes nothing. -/
  unchanged : ∀ err, o.result = .error err → o.state = t
  /-- There are no errors but for the number of nodes, for a conflict and in writing the body. -/
  errors : ∀ err, o.result = .error err → (∃ n, n ≠ 1 ∧ err = .ambiguousNodes n) ∨
    err = .signatureConflict key ∨ ∃ node rest, t.pinned = some (node :: rest) ∧
      TransactionBody.toBytes t.body node = .error err

/-! ### Operations that record one signature -/

/-- The operation records the signature of the body under the key, or there is a conflict. -/
structure RecordsBy (key : PublicKey) (sign : Bytes → Signature) (answer : Bytes → α)
    (op : Envelope → Outcome Signatures α) : Prop where
  /-- An accepted signature is recorded. -/
  ok : ∀ e, e.Accepts key (sign e.body) → (op e).result = .ok (answer e.body) ∧
    ∀ k, (op e).state.get? k = if k = key then some (sign e.body) else e.signatures.get? k
  /-- Any other is refused. -/
  conflict : ∀ e, ¬ e.Accepts key (sign e.body) →
    (op e).result = .error (.signatureConflict key) ∧ (op e).state = e.signatures

theorem recordsBy_insert (key : PublicKey) (s : Signature) :
    RecordsBy key (fun _ => s) (fun _ => ()) fun e => (e.insert key s).map fun _ => () := by
  refine ⟨fun e h => ?_, fun e h => ?_⟩
  · obtain ⟨⟨new, hnew⟩, hget⟩ := Envelope.insert_ok h
    exact ⟨by simp [Outcome.map, hnew, Except.map], hget⟩
  · simp [Envelope.insert_error h, Outcome.map, Except.map]

theorem recordsBy_sign (signer : Signer) (event : Envelope → Signature → TransactionEvent) :
    RecordsBy signer.publicKey signer.sign signer.sign fun e =>
      (e.signWith signer).report (event e) := by
  refine ⟨fun e h => ?_, fun e h => ?_⟩
  · rw [Outcome.result_report, Outcome.state_report]
    exact Envelope.signWith_ok h
  · rw [Outcome.result_report, Outcome.state_report]
    exact Envelope.signWith_error h

variable {key : PublicKey} {sign : Bytes → Signature} {answer : Bytes → α}
  {op : Envelope → Outcome Signatures α}

omit [TransactionBody B] in
theorem onOnly_recordsBy (hop : RecordsBy key sign answer op) {f : FrozenTransaction}
    {e : Envelope} (t : Transaction B) (he : f.envelopes = [e]) :
    (¬ e.Accepts key (sign e.body) ∧ (onOnly op f t).result = .error (.signatureConflict key) ∧
      (onOnly op f t).state = { t with frozen := some f }) ∨
    (e.Accepts key (sign e.body) ∧ (onOnly op f t).result = .ok (answer e.body) ∧
      ∃ g e', (onOnly op f t).state = { t with frozen := some g } ∧ g.envelopes = [e'] ∧
        Holds e e' key (sign e.body)) := by
  obtain ⟨g, hg, ho⟩ := onOnly_of_single op t he
  rw [ho]
  by_cases ha : e.Accepts key (sign e.body)
  · obtain ⟨hres, hget⟩ := hop.ok e ha
    exact .inr ⟨ha, hres, g, _, rfl, hg, rfl, hget⟩
  · obtain ⟨hres, hstate⟩ := hop.conflict e ha
    -- the signatures are those that were there, so nothing has changed
    have hgf : g = f := FrozenTransaction.eq_of_envelopes (by rw [hg, he, hstate]; rfl)
    exact .inl ⟨ha, hres, by rw [hgf]⟩

omit [TransactionBody B] in
theorem distinctPinned_eq (t : Transaction B) : t.distinctPinned = t.pinnedCount :=
  (List.card_toFinset _).trans
    (length_distinctOn (List.nodup_dedup _) fun _ => List.mem_dedup).symm

/-! ### The law -/

variable {o : Outcome (Transaction B) α}

/-- In a draft only the clauses on drafts are at stake. -/
theorem SingleGuard.of_draft (h : t.frozen = none)
    (hother : t.distinctPinned ≠ 1 → o.result = .error (.ambiguousNodes t.distinctPinned))
    (hone : t.distinctPinned = 1 →
      ∃ node rest, t.pinned = some (node :: rest) ∧
        ((∃ err, TransactionBody.toBytes t.body node = .error err ∧ o.result = .error err) ∨
        ∃ bytes f e, TransactionBody.toBytes t.body node = .ok bytes ∧
          o.result = .ok (answer bytes) ∧ o.state = { t with frozen := some f } ∧
          f.envelopes = [e] ∧ Holds ⟨node, bytes, .empty⟩ e key (sign bytes)))
    (hstate : ∀ err, o.result = .error err → o.state = t) :
    SingleGuard t key sign answer o := by
  have hfrozen : ∀ f, t.frozen ≠ some f := by
    intro f hf
    rw [h] at hf
    cases hf
  refine ⟨fun _ => hother, fun _ => hone, fun f hf => absurd hf (hfrozen f),
    fun f _ hf => absurd hf (hfrozen f), hstate, ?_⟩
  intro err he
  by_cases hc : t.distinctPinned = 1
  · obtain ⟨node, rest, hp, ⟨err', hb, he'⟩ | ⟨bytes, f, e, -, hok, -⟩⟩ := hone hc
    · obtain rfl := Except.error.inj (he'.symm.trans he)
      exact .inr (.inr ⟨node, rest, hp, hb⟩)
    · rw [hok] at he
      cases he
  · have hcount := Except.error.inj (he.symm.trans (hother hc))
    exact .inl ⟨t.distinctPinned, hc, hcount⟩

/-- In a frozen transaction only the clauses on frozen transactions are at stake. -/
theorem SingleGuard.of_frozen {f : FrozenTransaction} (h : t.frozen = some f)
    (hother : f.envelopes.length ≠ 1 → o.result = .error (.ambiguousNodes f.envelopes.length))
    (hone : ∀ e, f.envelopes = [e] →
      ((∃ r, e.signatures.get? key = some r ∧ r ≠ sign e.body) ∧
        o.result = .error (.signatureConflict key)) ∨
      ((∀ r, e.signatures.get? key = some r → r = sign e.body) ∧
        o.result = .ok (answer e.body) ∧ ∃ g e', o.state = { t with frozen := some g } ∧
          g.envelopes = [e'] ∧ Holds e e' key (sign e.body)))
    (hstate : ∀ err, o.result = .error err → o.state = t) :
    SingleGuard t key sign answer o := by
  have hdraft : t.frozen ≠ none := by
    intro hd
    rw [h] at hd
    cases hd
  have hsame : ∀ f', t.frozen = some f' → f' = f := fun f' hf' =>
    Option.some.inj (hf'.symm.trans h)
  refine ⟨fun hd => absurd hd hdraft, fun hd => absurd hd hdraft, ?_, ?_, hstate, ?_⟩
  · intro f' hf'
    rw [hsame f' hf']
    exact hother
  · intro f' e hf'
    rw [hsame f' hf']
    exact hone e
  · intro err he
    by_cases hn : f.envelopes.length = 1
    · obtain ⟨e, hes⟩ := List.length_eq_one_iff.1 hn
      obtain ⟨-, hc⟩ | ⟨-, hok, -⟩ := hone e hes
      · exact .inr (.inl (Except.error.inj (he.symm.trans hc)))
      · rw [hok] at he
        cases he
    · have hcount := Except.error.inj (he.symm.trans (hother hn))
      exact .inl ⟨f.envelopes.length, hn, hcount⟩

theorem singleGuard_of_draft (hop : RecordsBy key sign answer op) (h : t.frozen = none) :
    SingleGuard t key sign answer (t.onSingle op) := by
  have hcount := distinctPinned_eq t
  by_cases hc : t.pinnedCount = 1
  · have hone : t.distinctPinned = 1 := hcount.trans hc
    obtain ⟨node, rest, hp, hn⟩ := candidates_of_pinnedCount hc
    obtain ⟨err, hb, ho⟩ | ⟨bytes, f, hb, hf, -, ho⟩ := onSingle_of_node op h hn
    · rw [ho]
      exact .of_draft h (absurd hone)
        (fun _ => ⟨node, rest, hp, .inl ⟨err, hb, rfl⟩⟩) fun _ _ => rfl
    · rw [ho]
      -- a fresh envelope accepts every signature
      have hacc : Envelope.Accepts ⟨node, bytes, .empty⟩ key (sign bytes) := by
        intro r hr
        simp at hr
      obtain ⟨hno, -⟩ | ⟨-, hres, g, e, hstate, hg, hholds⟩ :=
        onOnly_recordsBy hop { t with frozen := some f } hf
      · exact absurd hacc hno
      · refine .of_draft h (absurd hone) ?_ ?_
        · intro _
          exact ⟨node, rest, hp, .inr ⟨bytes, g, e, hb, hres, hstate, hg, hholds⟩⟩
        · intro err he
          simp [hres] at he
  · rw [onSingle_of_draft op h hc, ← hcount]
    exact .of_draft h (fun _ => rfl) (fun hone => absurd (hcount.symm.trans hone) hc)
      fun _ _ => rfl

theorem singleGuard_of_frozen (hop : RecordsBy key sign answer op) {f : FrozenTransaction}
    (h : t.frozen = some f) : SingleGuard t key sign answer (t.onSingle op) := by
  rw [onSingle_of_frozen op h]
  by_cases hn : f.envelopes.length = 1
  · obtain ⟨e, he⟩ := List.length_eq_one_iff.1 hn
    have honly : ∀ e', f.envelopes = [e'] → e' = e := fun e' he' =>
      (List.cons.inj (he'.symm.trans he)).1
    obtain ⟨hno, hres, hstate⟩ | ⟨hacc, hres, hgain⟩ := onOnly_recordsBy hop t he
    · have hother : ∃ r, e.signatures.get? key = some r ∧ r ≠ sign e.body := by
        simpa [Envelope.Accepts] using hno
      refine .of_frozen h (absurd hn) ?_ ?_
      · intro e' he'
        rw [honly e' he']
        exact .inl ⟨hother, hres⟩
      · intro _ _
        rw [hstate, ← h]
    · refine .of_frozen h (absurd hn) ?_ ?_
      · intro e' he'
        rw [honly e' he']
        exact .inr ⟨hacc, hres, hgain⟩
      · intro err he
        simp [hres] at he
  · rw [onOnly_of_length_ne op t hn]
    refine .of_frozen h (fun _ => rfl) ?_ fun _ _ => rfl
    intro e he
    exact absurd (by rw [he]; rfl) hn

/-- **The guard on a single node.**  Signing, and recording a signature made elsewhere, obey one law
on every transaction: the number of nodes is checked before anything is frozen, one envelope takes
the signature unless it has another one under the key, and a call that fails changes nothing. -/
theorem single_signer_guard (t : Transaction B) (signer : Signer) (key : PublicKey)
    (s : Signature) :
    SingleGuard t signer.publicKey signer.sign signer.sign (t.signSingle signer) ∧
      SingleGuard t key (fun _ => s) (fun _ => ()) (t.addSignature key s) := by
  have guard : ∀ {α : Type} {key : PublicKey} {sign : Bytes → Signature} {answer : Bytes → α}
      {op : Envelope → Outcome Signatures α}, RecordsBy key sign answer op →
      SingleGuard t key sign answer (t.onSingle op) := by
    intro _ _ _ _ _ hop
    cases h : t.frozen with
    | none => exact singleGuard_of_draft hop h
    | some f => exact singleGuard_of_frozen hop h
  exact ⟨guard (recordsBy_sign signer _), guard (recordsBy_insert key s)⟩

end Transaction

end LedgerKit
