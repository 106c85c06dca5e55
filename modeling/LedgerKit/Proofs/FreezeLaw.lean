import LedgerKit.Proofs.Run

/-!
# The law of freezing

A draft is frozen for the nodes of its pinned list or, if none was pinned, of the list that a
selector gives; each entity counts once, by its first mention (`Transaction.firstMentions`).
`Transaction.FreezeLaw` says what comes of it: no node, an error in writing the body for the first
node that has one, or one envelope for each node.  Whatever is called after that, freezing again
finds what was stored.

* `Transaction.render_of_error`, `Transaction.render_of_ok` : writing the bodies ends at the first
  error, and without one it does not fail.
* `Transaction.freeze_law` : the law, with the state of the selector.
-/

namespace LedgerKit

namespace Transaction

variable {B : Type}

/-- The nodes of a list at positions before which the same entity is not mentioned, in order. -/
def firstMentions (nodes : List AccountId) : List AccountId :=
  (nodes.zipIdx.filter fun p => p.1.number ∉ (nodes.take p.2).map fun n => n.number).map Prod.fst

theorem candidates_eq_firstMentions (t : Transaction B) (offered : List AccountId) :
    t.candidates offered = firstMentions (t.pinned.getD offered) :=
  distinctOn_eq_filter_zipIdx _ _

theorem nodup_candidates (t : Transaction B) (offered : List AccountId) :
    ((t.candidates offered).map fun n => n.number).Nodup :=
  nodup_map_distinctOn _ _

/-- The letters of an id do not make it another node. -/
example : firstMentions [⟨⟨0, 0, 3⟩, some ⟨7⟩⟩, .ofNumbers 0 0 4, .ofNumbers 0 0 3] =
    [⟨⟨0, 0, 3⟩, some ⟨7⟩⟩, .ofNumbers 0 0 4] := by
  decide

/-- However bodies are written, freezing yields `f` and changes nothing, without a selector. -/
def KeepsFrozen (t : Transaction B) (f : FrozenTransaction) : Prop :=
  ∀ [TransactionBody B], t.freeze = .ok t f ∧
    ∀ {σ : Type} (select : σ → List AccountId × σ) (s : σ), t.freezeFrom select s = (.ok t f, s)

variable [TransactionBody B]

/-! ### Writing the bodies -/

theorem render_of_error {body : B} {before : List AccountId} {node : AccountId}
    {err : TransactionError}
    (hbefore : ∀ n ∈ before, ∃ bytes, TransactionBody.toBytes body n = .ok bytes)
    (herr : TransactionBody.toBytes body node = .error err) (after : List AccountId) :
    render body (before ++ node :: after) = .error err := by
  induction before with
  | nil => simp [render, herr]
  | cons n before ih =>
    obtain ⟨bytes, hn⟩ := hbefore n List.mem_cons_self
    have hrest := ih fun m hm => hbefore m (List.mem_cons_of_mem n hm)
    simp [render, hn, hrest, Except.map]

theorem render_of_ok {body : B} {nodes : List AccountId}
    (h : ∀ n ∈ nodes, ∃ bytes, TransactionBody.toBytes body n = .ok bytes) :
    ∃ es, render body nodes = .ok es := by
  induction nodes with
  | nil => exact ⟨[], rfl⟩
  | cons n nodes ih =>
    obtain ⟨bytes, hn⟩ := h n List.mem_cons_self
    obtain ⟨es, hes⟩ := ih fun m hm => h m (List.mem_cons_of_mem n hm)
    exact ⟨_, by simp only [render, hn, hes, Except.map]; rfl⟩

/-! ### The law -/

/-- What comes of freezing the draft `t` for the nodes `ds`. -/
structure FreezeLaw (t : Transaction B) (ds : List AccountId)
    (o : Outcome (Transaction B) FrozenTransaction) : Prop where
  /-- No two of the nodes are the same entity. -/
  distinct : (ds.map fun n => n.number).Nodup
  /-- There must be a node. -/
  no_node : ds = [] → o.result = .error .noCandidateNodes
  /-- The first node for which the body cannot be written decides the error. -/
  first_error : ∀ before node after err, ds = before ++ node :: after →
    (∀ n ∈ before, ∃ bytes, TransactionBody.toBytes t.body n = .ok bytes) →
    TransactionBody.toBytes t.body node = .error err → o.result = .error err
  /-- After a failure the draft is as it was, and it can be changed. -/
  unchanged : ∀ err, o.result = .error err → o.state = t ∧
    (∀ edit, o.state.editBody edit = .ok { t with body := edit t.body } ()) ∧
    ∀ nodes, o.state.setNodes nodes = .ok { t with pinned := some nodes } ()
  /-- If the body can be written for all nodes, each of them has an envelope, in their order. -/
  stored : ds ≠ [] → (∀ n ∈ ds, ∃ bytes, TransactionBody.toBytes t.body n = .ok bytes) →
    ∃ f : FrozenTransaction, o.result = .ok f ∧ o.state = { t with frozen := some f } ∧
      List.Forall₂ (fun n e => WrittenFor t.body n e) ds f.envelopes
  /-- Bodies differ if they are never the same for different entities. -/
  distinct_bodies : (∀ m n : AccountId, m.number ≠ n.number → ∀ bytes,
      TransactionBody.toBytes t.body m = .ok bytes → TransactionBody.toBytes t.body n ≠ .ok bytes) →
    ∀ f, o.result = .ok f → (f.envelopes.map Envelope.body).Nodup
  /-- Freezing again yields what was stored. -/
  again : ∀ f, o.result = .ok f → o.state.KeepsFrozen f
  /-- So it does after any further calls, with the signatures added since. -/
  later : ∀ f, o.result = .ok f → ∀ calls : List (Call B), ∃ g, f.Extends g ∧
    (o.state.run calls).KeepsFrozen g

variable {t : Transaction B} {f : FrozenTransaction}

theorem nodup_bodies {body : B} (hdiff : ∀ m n : AccountId, m.number ≠ n.number → ∀ bytes,
      TransactionBody.toBytes body m = .ok bytes → TransactionBody.toBytes body n ≠ .ok bytes)
    (hf : ∀ e ∈ f.envelopes, WrittenFrom body e) : (f.envelopes.map Envelope.body).Nodup := by
  refine List.pairwise_map.2 ((List.pairwise_map.1 f.distinct).imp_of_mem ?_)
  intro a b ha hb hne hsame
  have hb := hf b hb
  unfold WrittenFrom at hb
  rw [← hsame] at hb
  exact hdiff a.node b.node hne a.body (hf a ha) hb

omit [TransactionBody B] in
theorem keepsFrozen (h : t.frozen = some f) : t.KeepsFrozen f := by
  intro _
  refine ⟨freezeWith_of_frozen h [], ?_⟩
  intro σ select s
  simp [freezeFrom, asksForNodes, h, freezeWith_of_frozen h]

/-- A draft with pinned nodes is frozen for these, whatever is offered. -/
theorem freezeWith_of_pinned {nodes : List AccountId} (h : t.pinned = some nodes)
    (offered offered' : List AccountId) : t.freezeWith offered = t.freezeWith offered' := by
  obtain ⟨body, pinned, frozen⟩ := t
  obtain rfl : pinned = some nodes := h
  rfl

theorem freezeFrom_of_draft {σ : Type} (h : t.frozen = none) (select : σ → List AccountId × σ)
    (s : σ) : t.freezeFrom select s =
      (t.freezeWith (select s).1, if t.pinned.isSome then s else (select s).2) := by
  cases hp : t.pinned with
  | none => simp [freezeFrom, asksForNodes, h, hp]
  | some nodes =>
    rw [freezeWith_of_pinned hp (select s).1 []]
    simp [freezeFrom, asksForNodes, h, hp]

theorem freezeLaw_freezeWith (h : t.frozen = none) (offered : List AccountId) :
    FreezeLaw t (t.candidates offered) (t.freezeWith offered) := by
  have hfrozen : ∀ f, (t.freezeWith offered).result = .ok f →
      (t.freezeWith offered).state.frozen = some f := by
    intro f hf
    rw [(freezeWith_ok h hf).2.2]
  refine ⟨t.nodup_candidates offered, ?_, ?_, ?_, ?_, ?_,
    fun f hf => keepsFrozen (hfrozen f hf), ?_⟩
  · intro hnil
    rcases freezeWith_cases h offered with ⟨-, he⟩ | ⟨hne, -⟩ | ⟨hne, -⟩
    · rw [he]; rfl
    · exact absurd hnil hne
    · exact absurd hnil hne
  · intro before node after err hsplit hbefore herr
    have hr : render t.body (t.candidates offered) = .error err := by
      rw [hsplit]
      exact render_of_error hbefore herr after
    rcases freezeWith_cases h offered with ⟨hnil, -⟩ | ⟨-, err', hr', he⟩ | ⟨-, g, hg, -⟩
    · simp [hnil] at hsplit
    · obtain rfl : err' = err := Except.error.inj (hr'.symm.trans hr)
      rw [he]
      rfl
    · simp [hr] at hg
  · intro err herr
    have hstate : (t.freezeWith offered).state = t := by
      rcases state_freezeWith_of_draft h offered with hs | ⟨f, hf, -⟩
      · exact hs
      · simp [hf] at herr
    rw [hstate]
    exact ⟨rfl, fun edit => by simp [editBody, editWith, h],
      fun nodes => by simp [setNodes, editWith, h]⟩
  · intro hne hok
    obtain ⟨es, hes⟩ := render_of_ok hok
    rcases freezeWith_cases h offered with ⟨hnil, -⟩ | ⟨-, err, hr, -⟩ | ⟨-, g, hg, he⟩
    · exact absurd hnil hne
    · simp [hes] at hr
    · exact ⟨g, by rw [he], by rw [he], forall₂_of_render hg⟩
  · intro hdiff f hf
    exact nodup_bodies hdiff (written_of_freezeWith h hf)
  · intro f hf calls
    obtain ⟨g, hg, hfg⟩ := run_of_frozen (hfrozen f hf) calls
    exact ⟨g, hfg, keepsFrozen (by rw [hg])⟩

/-- **The law of freezing.**  A draft is frozen for the first mentions in its pinned list, if it has
one, be it empty, and else in the list of the selector, which is asked in this case only.  Freezing
without a selector is the same with an empty list in its place. -/
theorem freeze_law {σ : Type} (body : B) (pinned : Option (List AccountId))
    (select : σ → List AccountId × σ) (s : σ) :
    FreezeLaw { body, pinned } (firstMentions (pinned.getD (select s).1))
      (Transaction.freezeFrom { body, pinned } select s).1 ∧
    (Transaction.freezeFrom { body, pinned : Transaction B } select s).2 =
      (if pinned.isSome then s else (select s).2) ∧
    FreezeLaw { body, pinned } (firstMentions (pinned.getD []))
      (Transaction.freeze { body, pinned }) := by
  have hdraft : ({ body, pinned : Transaction B }).frozen = none := rfl
  rw [freezeFrom_of_draft hdraft]
  refine ⟨?_, rfl, ?_⟩
  · rw [← candidates_eq_firstMentions { body, pinned }]
    exact freezeLaw_freezeWith hdraft (select s).1
  · rw [← candidates_eq_firstMentions { body, pinned }]
    exact freezeLaw_freezeWith hdraft []

end Transaction

end LedgerKit
