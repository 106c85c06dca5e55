import LedgerKit.Proofs.Envelope
import LedgerKit.Proofs.Lists
import LedgerKit.Transaction.Frozen

/-!
# Frozen transactions only grow

`FrozenTransaction.Extends f g` says that `g` has the envelopes of `f`, in their order, each with
the signatures it had and perhaps more.  Every operation on a frozen transaction extends it, whether
it succeeds, fails, or fails after some envelopes have been signed: `extends_at?`,
`extends_signWith`, `extends_addToAll`.

Since no node has two envelopes, an operation on the envelope of a node is one that is applied
wherever this node stands (`onNode`).
-/

namespace LedgerKit

namespace FrozenTransaction

theorem eq_of_envelopes {f g : FrozenTransaction} (h : f.envelopes = g.envelopes) : f = g := by
  obtain ⟨_, _⟩ := f
  obtain ⟨_, _⟩ := g
  congr

/-- The envelopes of `g` are those of `f`, with all their signatures. -/
def Extends (f g : FrozenTransaction) : Prop :=
  List.Forall₂ Envelope.Extends f.envelopes g.envelopes

@[refl] theorem Extends.refl (f : FrozenTransaction) : f.Extends f :=
  List.forall₂_same.2 fun e _ => .refl e

theorem Extends.trans {f g h : FrozenTransaction} (hfg : f.Extends g) (hgh : g.Extends h) :
    f.Extends h :=
  forall₂_comp (fun _ _ _ hab hbc => hab.trans hbc) hfg hgh

theorem Extends.slots {f g : FrozenTransaction} (h : f.Extends g) :
    g.envelopes.map Envelope.slot = f.envelopes.map Envelope.slot := by
  unfold Extends at h
  generalize f.envelopes = es, g.envelopes = fs at h
  induction h with
  | nil => rfl
  | cons he _ ih => exact congrArg₂ List.cons he.1 ih

/-! ### Operations on one envelope -/

theorem forall₂_modify {R : Envelope → Envelope → Prop} (hR : ∀ e, R e e) {es : List Envelope}
    {i : ℕ} {e : Envelope} (he : es[i]? = some e) {g : Envelope → Envelope} (hg : R e (g e)) :
    List.Forall₂ R es (es.modify i g) := by
  induction es generalizing i with
  | nil => simp at he
  | cons x es ih =>
    cases i with
    | zero =>
      obtain rfl : x = e := by simpa using he
      exact .cons hg (List.forall₂_same.2 fun e _ => hR e)
    | succ i => exact .cons (hR x) (ih (by simpa using he))

theorem modify_eq_map {es : List Envelope} (hd : (es.map fun e => e.node.number).Nodup) {i : ℕ}
    {e : Envelope} (he : es[i]? = some e) (g : Envelope → Envelope) :
    es.modify i g = es.map fun x => if x.node.number = e.node.number then g x else x := by
  induction es generalizing i with
  | nil => simp at he
  | cons x es ih =>
    simp only [List.map_cons, List.nodup_cons] at hd
    cases i with
    | zero =>
      obtain rfl : x = e := by simpa using he
      -- no later envelope is for the node of the first
      have hrest : ∀ y ∈ es, y.node.number ≠ x.node.number := by
        intro y hy hyx
        exact hd.1 (hyx ▸ List.mem_map_of_mem (f := fun e : Envelope => e.node.number) hy)
      have hmap : (es.map fun y => if y.node.number = x.node.number then g y else y) = es := by
        conv => rhs; rw [← List.map_id es]
        refine List.map_congr_left ?_
        intro y hy
        rw [if_neg (hrest y hy), id]
      simp [hmap]
    | succ i =>
      have he : es[i]? = some e := by simpa using he
      have hne : x.node.number ≠ e.node.number := by
        intro hxe
        exact hd.1 (hxe ▸ List.mem_map_of_mem (f := fun e : Envelope => e.node.number)
          (List.mem_of_getElem? he))
      simp [hne, ih hd.2 he]

variable {f : FrozenTransaction} {α : Type} {op : Envelope → Outcome Signatures α}

theorem extends_at? (hop : ∀ e : Envelope, e.Extends (e.withSignatures (op e).state)) {i : ℕ}
    {o : Outcome FrozenTransaction α} (h : f.at? i op = some o) : f.Extends o.state := by
  obtain ⟨e, he, rfl⟩ := Option.map_eq_some_iff.1 h
  exact forall₂_modify Envelope.Extends.refl he (hop e)

theorem place?_eq_none_iff {n : EntityNumber} :
    f.place? n = none ↔ ∀ e ∈ f.envelopes, e.node.number ≠ n := by
  simp [place?]

/-- The operation on the envelope for a node, as it is found by `place?`. -/
def onNode (f : FrozenTransaction) (n : EntityNumber) (op : Envelope → Outcome Signatures α) :
    Option (Outcome FrozenTransaction α) :=
  (f.place? n).bind fun i => f.at? i op

theorem extends_onNode (hop : ∀ e : Envelope, e.Extends (e.withSignatures (op e).state))
    {n : EntityNumber} {o : Outcome FrozenTransaction α} (h : f.onNode n op = some o) :
    f.Extends o.state := by
  obtain ⟨i, -, hi⟩ := Option.bind_eq_some_iff.1 h
  exact extends_at? hop hi

/-- The operation changes the signatures of this envelope and of no other. -/
theorem onNode_eq_some {e : Envelope} (he : e ∈ f.envelopes)
    (op : Envelope → Outcome Signatures α) :
    ∃ o, f.onNode e.node.number op = some o ∧ o.result = (op e).result ∧
      o.events = (op e).events ∧
      o.state.envelopes = f.envelopes.map fun x =>
        if x.node.number = e.node.number then x.withSignatures (op e).state else x := by
  cases hp : f.place? e.node.number with
  | none => exact absurd rfl (place?_eq_none_iff.1 hp e he)
  | some i =>
    obtain ⟨hi, hn, -⟩ := List.findIdx?_eq_some_iff_getElem.1 hp
    have hn : f.envelopes[i].node.number = e.node.number := by simpa using hn
    -- the envelope at this place is `e`, since the nodes are different
    have hie : f.envelopes[i] = e :=
      List.inj_on_of_nodup_map f.distinct (List.getElem_mem hi) he hn
    have hi? : f.envelopes[i]? = some e := by rw [List.getElem?_eq_getElem hi, hie]
    have ho : f.onNode e.node.number op = some ((op e).within fun s =>
        f.replace (f.envelopes.modify i fun e => e.withSignatures s)
          (slots_modify f.envelopes i s)) := by
      simp only [onNode, hp, Option.bind_some, at?, hi?, Option.map_some]
    exact ⟨_, ho, rfl, rfl, modify_eq_map f.distinct hi? _⟩

/-! ### Operations on all envelopes -/

theorem extends_signEach (signer : Signer) (es : List Envelope) :
    List.Forall₂ Envelope.Extends es (signEach signer es).state := by
  induction es with
  | nil => exact .nil
  | cons e es ih =>
    simp only [signEach]
    split
    · -- after a conflict the envelopes that follow are left as they are
      exact .cons (Envelope.extends_signWith signer) (List.forall₂_same.2 fun x _ => .refl x)
    · exact .cons (Envelope.extends_signWith signer) ih

theorem extends_signWith (signer : Signer) : f.Extends (f.signWith signer).state := by
  rw [signWith, Outcome.state_report]
  exact extends_signEach signer f.envelopes

theorem extends_insertEach (key : PublicKey) (entries : List (EntityNumber × Signature)) :
    f.Extends (insertEach key entries f).state := by
  induction entries generalizing f with
  | nil => exact .refl f
  | cons p rest ih =>
    simp only [insertEach]
    split
    · exact .refl f
    · next o ho =>
      have hfo : f.Extends o.state := extends_onNode (fun e => Envelope.extends_insert) ho
      simp only [Outcome.andThen]
      split
      · exact hfo
      · exact hfo.trans ih

theorem extends_addToAll (key : PublicKey) (list : List (AccountId × Signature)) :
    f.Extends (f.addToAll key list).state := by
  unfold addToAll
  split
  · exact .refl f
  · exact extends_insertEach key _

end FrozenTransaction

end LedgerKit
