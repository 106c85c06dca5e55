import LedgerKit.Proofs.Frozen
import LedgerKit.Proofs.Lists
import LedgerKit.Transaction.Basic

/-!
# What freezing does

Freezing a draft has three outcomes (`Transaction.freezeWith_cases`): there is no node, the body
cannot be written for some node, or there is one envelope without signatures for each distinct node.
Only the last changes the transaction, and a frozen transaction is never changed by freezing
(`Transaction.freezeWith_of_frozen`).

An operation on the only envelope, `Transaction.onSingle`, is described by one equation for each
state in which it may find the transaction.
-/

namespace LedgerKit

namespace Transaction

variable {B : Type} {t : Transaction B} {f : FrozenTransaction}

/-- The distinct nodes that a draft is frozen for: the pinned ones or else those offered. -/
def candidates (t : Transaction B) (offered : List AccountId) : List AccountId :=
  distinctOn (fun n => n.number) (t.pinned.getD offered)

theorem candidates_eq_nil_iff {offered : List AccountId} :
    t.candidates offered = [] ↔ t.pinned.getD offered = [] := by
  unfold candidates
  cases t.pinned.getD offered <;> simp [distinctOn]

/-- The one node of a draft is the first that is pinned. -/
theorem candidates_of_pinnedCount (h : t.pinnedCount = 1) :
    ∃ node rest, t.pinned = some (node :: rest) ∧ t.candidates [] = [node] := by
  unfold pinnedCount at h
  unfold candidates
  match hp : t.pinned with
  | none => simp [hp, distinctOn] at h
  | some [] => simp [hp, distinctOn] at h
  | some (node :: rest) =>
    refine ⟨node, rest, rfl, ?_⟩
    obtain ⟨x, hx⟩ := List.length_eq_one_iff.1 h
    rw [hp] at hx
    simp only [Option.getD_some, distinctOn, List.cons.injEq] at hx ⊢
    exact ⟨trivial, hx.2⟩

variable [TransactionBody B]

/-! ### Writing the bodies -/

/-- The envelope is as it was written: its body is that of the transaction for its node. -/
def WrittenFrom (body : B) (e : Envelope) : Prop :=
  TransactionBody.toBytes body e.node = .ok e.body

/-- The envelope is what is stored for the node: the body written for it, and no signature. -/
def WrittenFor (body : B) (node : AccountId) (e : Envelope) : Prop :=
  e.node = node ∧ WrittenFrom body e ∧ e.signatures = .empty

theorem forall₂_of_render {body : B} {nodes : List AccountId} {es : List Envelope}
    (h : render body nodes = .ok es) : List.Forall₂ (WrittenFor body) nodes es := by
  induction nodes generalizing es with
  | nil =>
    cases h
    exact .nil
  | cons node nodes ih =>
    simp only [render] at h
    split at h
    · cases h
    · next bytes hb =>
      obtain ⟨fs, hr, rfl⟩ := map_cons_eq_ok_iff.1 h
      exact .cons ⟨rfl, hb, rfl⟩ (ih hr)

/-- Whether an envelope is as it was written depends on its node and body alone. -/
theorem WrittenFrom.of_slots {body : B} {es fs : List Envelope} (h : ∀ e ∈ es, WrittenFrom body e)
    (hs : fs.map Envelope.slot = es.map Envelope.slot) : ∀ e ∈ fs, WrittenFrom body e := by
  intro e he
  have hmem : e.slot ∈ es.map Envelope.slot := hs ▸ List.mem_map_of_mem he
  obtain ⟨x, hx, hxe⟩ := List.mem_map.1 hmem
  have hnode : x.node = e.node := congrArg Prod.fst hxe
  have hbody : x.body = e.body := congrArg Prod.snd hxe
  unfold WrittenFrom
  rw [← hnode, ← hbody]
  exact h x hx

/-! ### Freezing -/

theorem freezeWith_of_frozen (h : t.frozen = some f) (offered : List AccountId) :
    t.freezeWith offered = .ok t f := by
  simp [freezeWith, h]

theorem freezeWith_cases (h : t.frozen = none) (offered : List AccountId) :
    (t.candidates offered = [] ∧ t.freezeWith offered = .fail t .noCandidateNodes) ∨
    (t.candidates offered ≠ [] ∧ ∃ err, render t.body (t.candidates offered) = .error err ∧
      t.freezeWith offered = .fail t err) ∨
    (t.candidates offered ≠ [] ∧ ∃ f, render t.body (t.candidates offered) = .ok f.envelopes ∧
      t.freezeWith offered =
        ⟨.ok f, { t with frozen := some f }, [.frozen f.envelopes.length]⟩) := by
  rw [ne_eq, candidates_eq_nil_iff]
  unfold freezeWith
  rw [h]
  by_cases hn : t.pinned.getD offered = []
  · simp [hn]
  · -- with a node there is an attempt to write, and it is this that decides
    simp only [List.isEmpty_iff, hn, if_false, false_and, not_false_eq_true, true_and, false_or]
    split
    · next err he => exact .inl ⟨err, he, rfl⟩
    · next es he => exact .inr ⟨⟨es, nodup_render he⟩, he, rfl⟩

/-- What is known of a draft that freezing succeeds on. -/
theorem freezeWith_ok (h : t.frozen = none) {offered : List AccountId}
    (hf : (t.freezeWith offered).result = .ok f) :
    t.candidates offered ≠ [] ∧ render t.body (t.candidates offered) = .ok f.envelopes ∧
      (t.freezeWith offered).state = { t with frozen := some f } := by
  obtain ⟨-, he⟩ | ⟨-, err, -, he⟩ | ⟨hne, g, hg, he⟩ := freezeWith_cases h offered
  · simp [he] at hf
  · simp [he] at hf
  · obtain rfl : g = f := by simpa [he] using hf
    exact ⟨hne, hg, by rw [he]⟩

/-- A draft that is frozen afterwards has the envelopes of its distinct nodes, in their order. -/
theorem nodes_of_freezeWith (h : t.frozen = none) {offered : List AccountId}
    (hf : (t.freezeWith offered).result = .ok f) : f.nodes = t.candidates offered :=
  map_node_render (freezeWith_ok h hf).2.1

/-- A draft that is frozen afterwards has one envelope as it was written for each node. -/
theorem written_of_freezeWith (h : t.frozen = none) {offered : List AccountId}
    (hf : (t.freezeWith offered).result = .ok f) :
    ∀ e ∈ f.envelopes, WrittenFrom t.body e := by
  intro e hmem
  obtain ⟨node, -, hwritten⟩ := exists_of_forall₂ (forall₂_of_render (freezeWith_ok h hf).2.1) hmem
  exact hwritten.2.1

/-! ### Operations on the only envelope -/

variable {α : Type} (op : Envelope → Outcome Signatures α)

/-- What is done with the envelopes once the transaction is known to be frozen. -/
def onOnly (f : FrozenTransaction) (t : Transaction B) : Outcome (Transaction B) α :=
  match f.envelopes, f.at? 0 op with
  | [_], some o => o.within fun f => { t with frozen := some f }
  | es, _ => .fail t (.ambiguousNodes es.length)

omit [TransactionBody B] in
theorem onOnly_of_single {e : Envelope} (t : Transaction B) (he : f.envelopes = [e]) :
    ∃ g, g.envelopes = [e.withSignatures (op e).state] ∧
      onOnly op f t = ⟨(op e).result, { t with frozen := some g }, (op e).events⟩ := by
  obtain ⟨es, hd⟩ := f
  obtain rfl : es = [e] := he
  exact ⟨_, rfl, rfl⟩

omit [TransactionBody B] in
theorem onOnly_of_length_ne (t : Transaction B) (hn : f.envelopes.length ≠ 1) :
    onOnly op f t = .fail t (.ambiguousNodes f.envelopes.length) := by
  obtain ⟨es, hd⟩ := f
  cases es with
  | nil => rfl
  | cons e es =>
    cases es with
    | nil => exact absurd rfl hn
    | cons e' es => rfl

theorem onSingle_eq (h : t.isFrozen = true ∨ t.pinnedCount = 1) :
    t.onSingle op = t.freeze.andThen (onOnly op) := by
  rw [onSingle, if_neg]
  · rfl
  · rintro ⟨hf, hc⟩
    obtain h | h := h
    · simp [hf] at h
    · exact hc h

theorem onSingle_of_frozen (h : t.frozen = some f) : t.onSingle op = onOnly op f t := by
  rw [onSingle_eq op (.inl (by simp [isFrozen, h])), freeze, freezeWith_of_frozen h]
  rfl

theorem onSingle_of_draft (h : t.frozen = none) (hn : t.pinnedCount ≠ 1) :
    t.onSingle op = .fail t (.ambiguousNodes t.pinnedCount) := by
  rw [onSingle, if_pos ⟨by simp [isFrozen, h], hn⟩]

/-- A draft for one node is frozen for that node, unless the body cannot be written for it. -/
theorem onSingle_of_node {node : AccountId} (h : t.frozen = none)
    (hn : t.candidates [] = [node]) :
    (∃ err, TransactionBody.toBytes t.body node = .error err ∧ t.onSingle op = .fail t err) ∨
    ∃ bytes f, TransactionBody.toBytes t.body node = .ok bytes ∧
      f.envelopes = [⟨node, bytes, .empty⟩] ∧ (t.freezeWith []).result = .ok f ∧
      t.onSingle op =
        ⟨(onOnly op f { t with frozen := some f }).result,
          (onOnly op f { t with frozen := some f }).state,
          .frozen 1 :: (onOnly op f { t with frozen := some f }).events⟩ := by
  rw [onSingle_eq op (.inr (by rw [pinnedCount, ← candidates, hn]; rfl)), freeze]
  obtain ⟨hnil, -⟩ | ⟨-, err, hr, hf⟩ | ⟨-, f, hr, hf⟩ := freezeWith_cases h []
  · simp [hn] at hnil
  · refine .inl ⟨err, ?_, by rw [hf]; rfl⟩
    rw [hn] at hr
    simp only [render] at hr
    split at hr
    · simp_all
    · simp [Except.map] at hr
  · -- what was written for the list of one node is one envelope
    rw [hn] at hr
    simp only [render] at hr
    split at hr
    · cases hr
    · next bytes hb =>
      have hes : f.envelopes = [⟨node, bytes, .empty⟩] := by
        simpa [Except.map, eq_comm] using hr
      refine .inr ⟨bytes, f, hb, hes, by rw [hf], ?_⟩
      rw [hf, hes]
      rfl

end Transaction

end LedgerKit
