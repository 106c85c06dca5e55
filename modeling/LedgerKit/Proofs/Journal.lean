import LedgerKit.Proofs.Collection
import LedgerKit.Proofs.Grammar

/-!
# What a journal says of a transaction

The journal of a run is all that its calls reported, in order.  A `Tally` is something that the
journal counts and that the transaction holds: how often it was frozen, and the signatures in the
envelope for a node.  An operation reports what it adds to a tally, no more and no less, also when
it fails half way (`Outcome.Tallies`); so the two agree in every state of every run.

* `Tally.insert` : recording a signature, where the events come from.
* `Tally.perform` : one call.
* `Transaction.journal_faithful` : whole runs.
-/

namespace LedgerKit

/-! ### Events by their lines -/

theorem EntityNumber.toString_inj {m n : EntityNumber} : m.toString = n.toString ↔ m = n := by
  refine ⟨fun h => ?_, congrArg _⟩
  have hchars : m.chars = n.chars := String.ofList_injective h
  have hm := EntityNumber.ofChars?_eq_some_iff.2 (rfl : m.chars = m.chars)
  rw [hchars, EntityNumber.ofChars?_eq_some_iff.2 rfl] at hm
  exact (Option.some.inj hm).symm

namespace TransactionEvent

/-- The event is logged with this message. -/
def hasMessage (message : String) (e : TransactionEvent) : Bool := e.toLogLine.message = message

/-- The event is logged with this message and names the node. -/
def hasMessageFor (message : String) (n : EntityNumber) (e : TransactionEvent) : Bool :=
  e.hasMessage message && decide (("node", n.toString) ∈ e.toLogLine.fields)

variable {e : TransactionEvent}

theorem hasMessage_frozen_iff :
    e.hasMessage "transaction frozen" = true ↔ ∃ nodes, e = .frozen nodes := by
  cases e <;> simp [hasMessage, toLogLine]

theorem hasMessage_added_iff :
    e.hasMessage "signature added" = true ↔ ∃ n key, e = .signatureAdded n key := by
  cases e <;> simp [hasMessage, toLogLine]

theorem hasMessageFor_added_iff {n : EntityNumber} :
    e.hasMessageFor "signature added" n = true ↔ ∃ key, e = .signatureAdded n key := by
  rw [hasMessageFor, Bool.and_eq_true, hasMessage_added_iff]
  constructor
  · rintro ⟨⟨m, key, rfl⟩, hnode⟩
    have hnode : n.toString = ToString.toString m := by simpa [toLogLine] using hnode
    rw [EntityNumber.toString_inj.1 hnode]
    exact ⟨key, rfl⟩
  · rintro ⟨key, rfl⟩
    have hnode : n.toString = ToString.toString n := rfl
    exact ⟨⟨n, key, rfl⟩, by simp [toLogLine, hnode]⟩

end TransactionEvent

/-! ### Tallies -/

/-- Something that a journal counts. -/
inductive Tally where
  /-- How often the transaction was frozen. -/
  | freezes
  /-- The signatures in the envelope for a node. -/
  | signaturesFor (node : EntityNumber)

namespace Tally

/-- The events that count. -/
def counts : Tally → TransactionEvent → Bool
  | freezes => TransactionEvent.hasMessage "transaction frozen"
  | signaturesFor n => TransactionEvent.hasMessageFor "signature added" n

/-- How many such events there are. -/
def count (y : Tally) (events : List TransactionEvent) : ℕ := events.countP y.counts

/-- What an envelope has of it. -/
def inEnvelope (e : Envelope) : Tally → ℕ
  | freezes => 0
  | signaturesFor n => if e.node.number = n then e.signatures.size else 0

/-- What some envelopes have of it. -/
def inEnvelopes (y : Tally) : List Envelope → ℕ
  | [] => 0
  | e :: es => y.inEnvelope e + y.inEnvelopes es

/-- What there is of it in a transaction without signatures, by its being frozen. -/
def byFreezing : Tally → ℕ
  | freezes => 1
  | signaturesFor _ => 0

/-- What a transaction has of it: nothing while it is a draft. -/
def inTransaction {B : Type} (y : Tally) (t : Transaction B) : ℕ :=
  match t.frozen with
  | none => 0
  | some f => y.byFreezing + y.inEnvelopes f.envelopes

variable {y : Tally}

theorem count_append (events events' : List TransactionEvent) :
    y.count (events ++ events') = y.count events + y.count events' :=
  List.countP_append

theorem count_frozen (nodes : ℕ) : y.count [.frozen nodes] = y.byFreezing := by
  cases y <;> rfl

/-- Only freezing and adding a signature count. -/
theorem counts_eq_false {e : TransactionEvent} (hfrozen : ∀ nodes, e ≠ .frozen nodes)
    (hadded : ∀ n key, e ≠ .signatureAdded n key) : y.counts e = false := by
  cases y with
  | freezes =>
    rw [counts, Bool.eq_false_iff, ne_eq, TransactionEvent.hasMessage_frozen_iff]
    rintro ⟨nodes, rfl⟩
    exact hfrozen nodes rfl
  | signaturesFor n =>
    rw [counts, Bool.eq_false_iff, ne_eq, TransactionEvent.hasMessageFor_added_iff]
    rintro ⟨key, rfl⟩
    exact hadded n key rfl

end Tally

/-! ### Operations that report what they add -/

/-- What the outcome reports is what the state has gained of the tally. -/
def Outcome.Tallies {σ α : Type} (y : Tally) (size : σ → ℕ) (s : σ) (o : Outcome σ α) : Prop :=
  size o.state = size s + y.count o.events

namespace Outcome

variable {σ α β : Type} {y : Tally} {size : σ → ℕ} {s : σ} {o : Outcome σ α}

theorem Tallies.map (h : o.Tallies y size s) (f : α → β) : (o.map f).Tallies y size s := h

/-- The next operation reports what it adds to what the first one left. -/
theorem Tallies.andThen (h : o.Tallies y size s) {next : α → σ → Outcome σ β}
    (hnext : ∀ a, o.result = .ok a → (next a o.state).Tallies y size o.state) :
    (o.andThen next).Tallies y size s := by
  unfold Outcome.andThen
  split
  · exact h
  · next a ha =>
    have hn : size (next a o.state).state = _ := hnext a ha
    have ho : size o.state = _ := h
    rw [Tallies, Tally.count_append, hn, ho, Nat.add_assoc]

theorem Tallies.report (h : o.Tallies y size s) {event : α → TransactionEvent}
    (hevent : ∀ a, y.counts (event a) = false) : (o.report event).Tallies y size s := by
  refine h.andThen fun a _ => ?_
  simp [Tallies, Tally.count, hevent a]

end Outcome

namespace Tally

/-! ### One envelope -/

/-- The operation on envelopes reports what it adds to the signatures. -/
def ReportedBy {α : Type} (y : Tally) (op : Envelope → Outcome Signatures α) : Prop :=
  ∀ e, y.inEnvelope (e.withSignatures (op e).state) = y.inEnvelope e + y.count (op e).events

variable {y : Tally} {α : Type} {op : Envelope → Outcome Signatures α}

theorem counts_added (n m : EntityNumber) (key : PublicKey) :
    (signaturesFor n).counts (.signatureAdded m key) = decide (m = n) := by
  rw [Bool.eq_iff_iff, counts, TransactionEvent.hasMessageFor_added_iff, decide_eq_true_eq]
  constructor
  · rintro ⟨k, hk⟩
    exact (TransactionEvent.signatureAdded.inj hk).1
  · rintro rfl
    exact ⟨key, rfl⟩

/-- A new signature makes the envelope larger by one, and the event names its node. -/
theorem reportedBy_insert (y : Tally) (key : PublicKey) (s : Signature) :
    y.ReportedBy fun e => e.insert key s := by
  intro e
  dsimp only
  obtain ⟨hn, hi⟩ | ⟨-, hi⟩ | ⟨r, -, -, hi⟩ := Envelope.insert_cases e key s
  · rw [hi]
    cases y with
    | freezes => rfl
    | signaturesFor n =>
      have hsize := SortedMap.size_insert_of_get? s hn
      by_cases hnode : e.node.number = n <;>
        simp [inEnvelope, Envelope.withSignatures, hnode, hsize, count, counts_added]
  · have hcounts : y.counts (.signaturePresent e.node.number key) = false :=
      counts_eq_false (by simp) (by simp)
    simp [hi, Envelope.withSignatures, count, hcounts]
  · have hcounts : y.counts (.conflictRejected e.node.number key) = false :=
      counts_eq_false (by simp) (by simp)
    simp [hi, Envelope.withSignatures, count, hcounts]

theorem ReportedBy.map {β : Type} (h : y.ReportedBy op) (f : α → β) :
    y.ReportedBy fun e => (op e).map f := h

theorem reportedBy_signWith (y : Tally) (signer : Signer) :
    y.ReportedBy fun e => e.signWith signer := by
  intro e
  exact reportedBy_insert y signer.publicKey (signer.sign e.body) e

theorem ReportedBy.report (h : y.ReportedBy op) {event : Envelope → α → TransactionEvent}
    (hevent : ∀ e a, y.counts (event e a) = false) :
    y.ReportedBy fun e => (op e).report (event e) := by
  intro e
  have hop : (op e).Tallies y (fun s => y.inEnvelope (e.withSignatures s)) e.signatures := h e
  exact hop.report (hevent e)

/-! ### Several envelopes -/

theorem inEnvelopes_cons (e : Envelope) (es : List Envelope) :
    y.inEnvelopes (e :: es) = y.inEnvelope e + y.inEnvelopes es := rfl

theorem inEnvelopes_modify {es : List Envelope} {i : ℕ} {e : Envelope} (he : es[i]? = some e)
    {g : Envelope → Envelope} {n : ℕ} (hg : y.inEnvelope (g e) = y.inEnvelope e + n) :
    y.inEnvelopes (es.modify i g) = y.inEnvelopes es + n := by
  induction es generalizing i with
  | nil => simp at he
  | cons x es ih =>
    cases i with
    | zero =>
      obtain rfl : x = e := by simpa using he
      rw [List.modify_zero_cons, inEnvelopes_cons, inEnvelopes_cons, hg]
      omega
    | succ i =>
      rw [List.modify_succ_cons, inEnvelopes_cons, inEnvelopes_cons, ih (by simpa using he)]
      omega

theorem inEnvelopes_eq_zero {es : List Envelope} (h : ∀ e ∈ es, y.inEnvelope e = 0) :
    y.inEnvelopes es = 0 := by
  induction es with
  | nil => rfl
  | cons e es ih =>
    rw [inEnvelopes_cons, h e List.mem_cons_self, ih fun x hx => h x (List.mem_cons_of_mem e hx)]

/-- In a frozen transaction only one envelope has signatures for a node. -/
theorem inEnvelopes_of_mem {f : FrozenTransaction} {e : Envelope} (he : e ∈ f.envelopes) :
    (signaturesFor e.node.number).inEnvelopes f.envelopes = e.signatures.size := by
  obtain ⟨es, hd⟩ := f
  dsimp only at he ⊢
  induction es with
  | nil => cases he
  | cons x es ih =>
    simp only [List.map_cons, List.nodup_cons, List.mem_map, not_exists, not_and] at hd
    have hothers : ∀ z ∈ es, (signaturesFor x.node.number).inEnvelope z = 0 := by
      intro z hz
      simp [inEnvelope, hd.1 z hz]
    rw [inEnvelopes_cons]
    rcases List.mem_cons.1 he with rfl | he
    · rw [inEnvelopes_eq_zero hothers]
      simp [inEnvelope]
    · have hne : x.node.number ≠ e.node.number := fun h => hd.1 e he h.symm
      rw [ih hd.2 he]
      simp [inEnvelope, hne]

end Tally

namespace FrozenTransaction

variable {f : FrozenTransaction} {y : Tally} {α : Type} {op : Envelope → Outcome Signatures α}

theorem tallies_at? (hop : y.ReportedBy op) {i : ℕ} {o : Outcome FrozenTransaction α}
    (h : f.at? i op = some o) : o.Tallies y (fun f => y.inEnvelopes f.envelopes) f := by
  obtain ⟨e, he, rfl⟩ := Option.map_eq_some_iff.1 h
  exact Tally.inEnvelopes_modify he (hop e)

theorem tallies_signEach (y : Tally) (signer : Signer) (es : List Envelope) :
    (signEach signer es).Tallies y y.inEnvelopes es := by
  induction es with
  | nil => rfl
  | cons e es ih =>
    have hfirst := Tally.reportedBy_signWith y signer e
    have hrest : y.inEnvelopes (signEach signer es).state = _ := ih
    unfold Outcome.Tallies
    simp only [signEach]
    split
    · simp only [Tally.inEnvelopes_cons, hfirst]
      omega
    · simp only [Tally.inEnvelopes_cons, hfirst, hrest, Tally.count_append]
      omega

theorem tallies_signWith (y : Tally) (f : FrozenTransaction) (signer : Signer) :
    (f.signWith signer).Tallies y (fun f => y.inEnvelopes f.envelopes) f := by
  have hcounts : ∀ n, y.counts (.allSigned signer.publicKey n) = false := fun n =>
    Tally.counts_eq_false (by simp) (by simp)
  have heach : (Outcome.mk (signEach signer f.envelopes).result
      (f.replace (signEach signer f.envelopes).state (slots_signEach signer f.envelopes))
      (signEach signer f.envelopes).events).Tallies y (fun f => y.inEnvelopes f.envelopes) f :=
    tallies_signEach y signer f.envelopes
  exact heach.report fun _ => hcounts _

theorem tallies_insertEach (y : Tally) (key : PublicKey) (f : FrozenTransaction)
    (entries : List (EntityNumber × Signature)) :
    (insertEach key entries f).Tallies y (fun f => y.inEnvelopes f.envelopes) f := by
  induction entries generalizing f with
  | nil => rfl
  | cons p rest ih =>
    simp only [insertEach]
    split
    · rfl
    · next o ho =>
      obtain ⟨i, -, hi⟩ := Option.bind_eq_some_iff.1 ho
      exact (tallies_at? (Tally.reportedBy_insert y key p.2) hi).andThen fun _ _ => ih o.state

/-- A list that is refused adds nothing, and what is reported of it does not count. -/
theorem tallies_addToAll (y : Tally) (f : FrozenTransaction) (key : PublicKey)
    (list : List (AccountId × Signature)) :
    (f.addToAll key list).Tallies y (fun f => y.inEnvelopes f.envelopes) f := by
  unfold addToAll
  split
  · next r _ =>
    have hevents : y.count (r.events key) = 0 := by
      cases r with
      | unknownNode n => rfl
      | listedTwice => rfl
      | recorded n =>
        simp [Refusal.events, Tally.count,
          Tally.counts_eq_false (y := y) (e := .conflictRejected n key) (by simp) (by simp)]
    simp [Outcome.Tallies, hevents]
  · exact tallies_insertEach y key f _

end FrozenTransaction

/-! ### Transactions -/

namespace Transaction

variable {B : Type} {t : Transaction B} {f : FrozenTransaction} {y : Tally} {α : Type}

theorem tallies_whenFrozen {op : FrozenTransaction → Option (Outcome FrozenTransaction α)}
    (hop : ∀ f o, op f = some o → o.Tallies y (fun f => y.inEnvelopes f.envelopes) f) :
    (t.whenFrozen op).Tallies y y.inTransaction t := by
  unfold whenFrozen
  split
  · rfl
  · next o ho =>
    obtain ⟨f, hf, ho⟩ := Option.bind_eq_some_iff.1 ho
    have hgain : y.inEnvelopes o.state.envelopes = _ := hop f o ho
    simp only [Outcome.Tallies, Outcome.map, Outcome.within, Tally.inTransaction, hf, hgain]
    omega

variable {op : Envelope → Outcome Signatures α}

theorem tallies_onOnly (hop : y.ReportedBy op) (h : t.frozen = some f) :
    (onOnly op f t).Tallies y y.inTransaction t := by
  by_cases hn : f.envelopes.length = 1
  · obtain ⟨e, he⟩ := List.length_eq_one_iff.1 hn
    obtain ⟨g, hg, ho⟩ := onOnly_of_single op t he
    have hgain := hop e
    rw [ho]
    simp only [Outcome.Tallies, Tally.inTransaction, h, he, hg, Tally.inEnvelopes_cons, hgain]
    omega
  · rw [onOnly_of_length_ne op t hn]
    rfl

variable [TransactionBody B]

/-- Freezing reports that it froze, and what it stores has no signatures. -/
theorem tallies_freezeWith (y : Tally) (t : Transaction B) (offered : List AccountId) :
    (t.freezeWith offered).Tallies y y.inTransaction t := by
  cases h : t.frozen with
  | some f =>
    rw [freezeWith_of_frozen h]
    rfl
  | none =>
    obtain ⟨-, he⟩ | ⟨-, err, -, he⟩ | ⟨-, f, hf, he⟩ := freezeWith_cases h offered
    · rw [he]
      rfl
    · rw [he]
      rfl
    · obtain ⟨-, hempty⟩ := FrozenTransaction.fresh_of_freezeWith h (by rw [he])
      have hzero : y.inEnvelopes f.envelopes = 0 := by
        refine Tally.inEnvelopes_eq_zero fun e hmem => ?_
        cases y with
        | freezes => rfl
        | signaturesFor n => simp [Tally.inEnvelope, hempty e hmem, SortedMap.size, SortedMap.empty]
      rw [he]
      simp [Outcome.Tallies, Tally.inTransaction, h, hzero, Tally.count_frozen]

theorem frozen_of_freezeWith {offered : List AccountId}
    (h : (t.freezeWith offered).result = .ok f) :
    (t.freezeWith offered).state.frozen = some f := by
  cases hd : t.frozen with
  | some g =>
    rw [freezeWith_of_frozen hd] at h ⊢
    rw [← Except.ok.inj h]
    exact hd
  | none => rw [(freezeWith_ok hd h).2.2]

theorem tallies_onSingle (hop : y.ReportedBy op) (t : Transaction B) :
    (t.onSingle op).Tallies y y.inTransaction t := by
  by_cases hc : t.isFrozen = true ∨ t.pinnedCount = 1
  · rw [onSingle_eq op hc]
    exact (tallies_freezeWith y t []).andThen fun f hf =>
      tallies_onOnly hop (frozen_of_freezeWith hf)
  · rw [not_or, Bool.not_eq_true] at hc
    rw [onSingle, if_pos hc]
    rfl

/-- **One call** reports what it adds to a tally. -/
theorem tallies_perform (y : Tally) (t : Transaction B) (c : Call B) :
    (t.perform c).Tallies y y.inTransaction t := by
  have hedit : ∀ change : Transaction B → Transaction B, (∀ t, (change t).frozen = t.frozen) →
      (t.editWith change).Tallies y y.inTransaction t := by
    intro change hchange
    unfold editWith
    split
    · rfl
    · simp [Outcome.Tallies, Tally.inTransaction, hchange, Tally.count]
  have hsingle : ∀ (e : Envelope) (signer : Signer),
      y.counts (.singleSigned e.node.number signer.publicKey) = false := fun e signer =>
    Tally.counts_eq_false (by simp) (by simp)
  cases c with
  | editBody edit => exact hedit _ fun _ => rfl
  | setNodes nodes => exact hedit _ fun _ => rfl
  | freeze => exact (tallies_freezeWith y t []).map _
  | freezeWith offered => exact (tallies_freezeWith y t offered).map _
  | signSingle signer =>
    exact (tallies_onSingle ((Tally.reportedBy_signWith y signer).report
      fun e _ => hsingle e signer) t).map _
  | addSignature key s =>
    exact tallies_onSingle ((Tally.reportedBy_insert y key s).map _) t
  | signAll signer =>
    refine tallies_whenFrozen fun f o ho => ?_
    obtain rfl := Option.some.inj ho
    exact FrozenTransaction.tallies_signWith y f signer
  | addToAll key list =>
    refine tallies_whenFrozen fun f o ho => ?_
    obtain rfl := Option.some.inj ho
    exact FrozenTransaction.tallies_addToAll y f key list
  | insertAt i key s =>
    exact tallies_whenFrozen fun f o =>
      FrozenTransaction.tallies_at? (Tally.reportedBy_insert y key s)
  | signAt i signer =>
    exact tallies_whenFrozen fun f o =>
      FrozenTransaction.tallies_at? (Tally.reportedBy_signWith y signer)

/-- If a call leaves what is frozen as it was, then so are all tallies, and none of its events
counts. -/
theorem counts_of_perform {c : Call B} (hsame : (t.perform c).state.frozen = t.frozen)
    {event : TransactionEvent} (hevent : event ∈ (t.perform c).events) (y : Tally) :
    y.counts event = false := by
  have hgain : y.inTransaction (t.perform c).state = _ := tallies_perform y t c
  rw [Tally.inTransaction, hsame, ← Tally.inTransaction, Nat.left_eq_add, Tally.count,
    List.countP_eq_zero] at hgain
  simpa using hgain event hevent

/-- The calls of a run, each with the state in which it finds the transaction. -/
def steps (t : Transaction B) : List (Call B) → List (Transaction B × Call B)
  | [] => []
  | c :: calls => (t, c) :: steps (t.perform c).state calls

/-- What the calls of a run reported, in order. -/
def journal (t : Transaction B) (calls : List (Call B)) : List TransactionEvent :=
  (t.steps calls).flatMap fun step => (step.1.perform step.2).events

theorem journal_cons (t : Transaction B) (c : Call B) (calls : List (Call B)) :
    t.journal (c :: calls) = (t.perform c).events ++ (t.perform c).state.journal calls :=
  List.flatMap_cons

/-- **A run** reports what it adds to a tally. -/
theorem inTransaction_run (y : Tally) (t : Transaction B) (calls : List (Call B)) :
    y.inTransaction (t.run calls) = y.inTransaction t + y.count (t.journal calls) := by
  induction calls generalizing t with
  | nil => rfl
  | cons c calls ih =>
    have hfirst : y.inTransaction (t.perform c).state = _ := tallies_perform y t c
    have hrest : y.inTransaction ((t.perform c).state.run calls) = _ := ih _
    rw [journal_cons, Tally.count_append, ← Nat.add_assoc, ← hfirst]
    exact hrest

/-- **The journal is a faithful record of the state.**  In every state of every run since the
transaction was made, freezing has been reported once if the transaction is frozen and else not at
all, and for the node of each envelope as many signatures have been reported as the envelope has.  A
call that leaves the draft a draft, or the frozen transaction with the signatures it had, reports
neither. -/
theorem journal_faithful (body : B) (calls : List (Call B)) :
    ((({ body } : Transaction B).journal calls).countP
        (TransactionEvent.hasMessage "transaction frozen") =
      if (history body calls).isFrozen then 1 else 0) ∧
    (∀ f, (history body calls).frozen = some f → ∀ e ∈ f.envelopes,
      (({ body } : Transaction B).journal calls).countP
        (TransactionEvent.hasMessageFor "signature added" e.node.number) = e.signatures.size) ∧
    ∀ c, ((history body calls).perform c).state.frozen = (history body calls).frozen →
      ∀ event ∈ ((history body calls).perform c).events,
        event.hasMessage "transaction frozen" = false ∧
        event.hasMessage "signature added" = false := by
  have hrun : ∀ y : Tally, y.count (({ body } : Transaction B).journal calls) =
      y.inTransaction (history body calls) := by
    intro y
    have hstart : y.inTransaction ({ body } : Transaction B) = 0 := rfl
    rw [history, inTransaction_run, hstart, Nat.zero_add]
  refine ⟨?_, ?_, ?_⟩
  · refine (hrun .freezes).trans ?_
    rw [Tally.inTransaction, isFrozen]
    cases (history body calls).frozen with
    | none => rfl
    | some f => simp [Tally.byFreezing, Tally.inEnvelopes_eq_zero (y := .freezes) fun _ _ => rfl]
  · intro f hf e he
    refine (hrun (.signaturesFor e.node.number)).trans ?_
    simp only [Tally.inTransaction, hf, Tally.byFreezing, Tally.inEnvelopes_of_mem he, Nat.zero_add]
  · intro c hsame event hevent
    have hnone := counts_of_perform hsame hevent
    refine ⟨hnone .freezes, ?_⟩
    rw [Bool.eq_false_iff, ne_eq, TransactionEvent.hasMessage_added_iff]
    rintro ⟨n, key, rfl⟩
    simpa [Tally.counts_added] using hnone (.signaturesFor n)

end Transaction

end LedgerKit
