import LedgerKit.Proofs.Listed
import LedgerKit.Proofs.PartialSigning

/-!
# Who has signed, and whether it verifies

The signers of a frozen transaction are the keys under which every envelope holds a signature.
Envelopes keep what they hold, so the signers only become more, and a signature that does not verify
is there for good.

* `FrozenTransaction.Extends.mem_signers`, `FrozenTransaction.Extends.verify` : what growing does
  to the signers, and to the verdict.
* `FrozenTransaction.mem_signers_signWith`, `FrozenTransaction.mem_signers_addToAll` : which calls
  make a key a signer.
* `Transaction.envelopes_ne_nil_of_history` : there is always an envelope.
* `Transaction.signers_and_verdict` : all of this in every state that is reached.
-/

namespace LedgerKit

/-! ### What growing does -/

namespace FrozenTransaction

variable {f g : FrozenTransaction} {k : PublicKey}

theorem Extends.envelopes_ne_nil (h : f.Extends g) (hne : f.envelopes ≠ []) : g.envelopes ≠ [] := by
  obtain ⟨e, he⟩ := List.exists_mem_of_ne_nil _ hne
  obtain ⟨e', he', -⟩ := exists_of_forall₂_left h he
  exact List.ne_nil_of_mem he'

/-- No signer is lost. -/
theorem Extends.mem_signers (h : f.Extends g) (hk : k ∈ f.signers) : k ∈ g.signers := by
  obtain ⟨hne, hall⟩ := mem_signers_iff.1 hk
  refine mem_signers_iff.2 ⟨h.envelopes_ne_nil hne, fun e' he' => ?_⟩
  obtain ⟨e, he, hext⟩ := exists_of_forall₂ h he'
  obtain ⟨s, hs⟩ := hall e he
  exact ⟨s, hext.2 k s hs⟩

/-- What verifies as a whole did so when there was less of it. -/
theorem Extends.verify (h : f.Extends g) (hg : g.verify = true) : f.verify = true := by
  rw [verify_iff] at hg ⊢
  intro e he k s hs
  obtain ⟨e', he', hslot, hkept⟩ := exists_of_forall₂_left h he
  have hbody : e'.body = e.body := congrArg Prod.snd hslot
  rw [← hbody]
  exact hg e' he' k s (hkept k s hs)

/-! ### Which calls make a key a signer -/

theorem ascending_signers (f : FrozenTransaction) :
    f.signers.Pairwise fun a b => compare a b = .lt := by
  unfold signers
  cases f.envelopes with
  | nil => exact .nil
  | cons e es =>
    have hkeys : e.signatures.keys.Pairwise fun a b => compare a b = .lt :=
      List.pairwise_map.2 e.signatures.sorted
    exact hkeys.filter _

/-- A signer who signs all bodies without a conflict becomes one of the signers. -/
theorem mem_signers_signWith {signer : Signer} {answer : List Signature} (hne : f.envelopes ≠ [])
    (h : (f.signWith signer).result = .ok answer) :
    signer.publicKey ∈ (f.signWith signer).state.signers := by
  rw [result_signWith] at h
  obtain ⟨hall, -, hstate⟩ | ⟨_, _, _, -, -, -, herr, -⟩ := signEach_cases signer f.envelopes
  · have hgain := forall₂_gainsFrom hall
    rw [← hstate, ← envelopes_signWith] at hgain
    refine mem_signers_iff.2 ⟨(extends_signWith signer).envelopes_ne_nil hne, fun e' he' => ?_⟩
    obtain ⟨e, -, hown⟩ := exists_of_forall₂ hgain he'
    exact ⟨_, hown.own⟩
  · rw [herr] at h
    cases h

/-- A list that is recorded and has every node makes its key a signer. -/
theorem mem_signers_addToAll {list : List (AccountId × Signature)} (hne : f.envelopes ≠ [])
    (h : (f.addToAll k list).result = .ok ())
    (hcover : ∀ node ∈ f.nodes, ∃ p ∈ list, p.1.number = node.number) :
    k ∈ (f.addToAll k list).state.signers := by
  obtain ⟨-, -, hgain⟩ | ⟨-, -, _, _, _, -, -, -, herr⟩ := f.addToAll_cases k list
  · refine mem_signers_iff.2 ⟨(extends_addToAll k list).envelopes_ne_nil hne, fun e' he' => ?_⟩
    obtain ⟨e, he, -, hget⟩ := exists_of_forall₂ hgain he'
    obtain ⟨p, hp, hnode⟩ := hcover e.node (List.mem_map_of_mem he)
    exact ⟨p.2, (hget k p.2).2 (.inr ⟨rfl, p, hp, hnode, rfl⟩)⟩
  · rw [herr] at h
    cases h

end FrozenTransaction

/-! ### Whole runs -/

namespace Transaction

variable {B : Type} [TransactionBody B] {t : Transaction B} {f g : FrozenTransaction}
  {k : PublicKey}

/-- A transaction is frozen for at least one node. -/
theorem envelopes_ne_nil_of_history {body : B} {calls : List (Call B)}
    (hf : (history body calls).frozen = some f) : f.envelopes ≠ [] := by
  induction calls using List.reverseRecOn generalizing f with
  | nil => cases hf
  | append_singleton calls c ih =>
    rw [history_append] at hf
    cases hbefore : (history body calls).frozen with
    | none =>
      obtain ⟨stored, hstored, -, hext⟩ := perform_of_draft hbefore c hf
      exact hext.envelopes_ne_nil (FrozenTransaction.fresh_of_freezeWith hbefore hstored).1
    | some g =>
      obtain ⟨g', hg', hext⟩ := perform_of_frozen hbefore c
      change ((history body calls).perform c).state.frozen = some f at hf
      rw [hg'] at hf
      obtain rfl := Option.some.inj hf
      exact hext.envelopes_ne_nil (ih hbefore)

/-- A key that one call has made a signer stays one, whatever is called next. -/
theorem mem_signers_run_cons {c : Call B} (hc : (t.perform c).state.frozen = some g)
    (hk : k ∈ g.signers) (calls : List (Call B)) :
    ∃ h, (t.run (c :: calls)).frozen = some h ∧ k ∈ h.signers := by
  obtain ⟨h, hh, hext⟩ := run_of_frozen hc calls
  refine ⟨h, ?_, hext.mem_signers hk⟩
  change ((t.perform c).state.run calls).frozen = some h
  rw [hh]

/-- The signers and the verdict on all signatures in a state of a transaction, and what becomes of
them whatever is called from then on. -/
structure KeepsSigners (t : Transaction B) (f : FrozenTransaction) : Prop where
  /-- The signers are the keys under which every envelope holds a signature. -/
  signers_iff : ∀ k, k ∈ f.signers ↔ ∀ e ∈ f.envelopes, ∃ s, e.signatures.get? k = some s
  /-- They are listed in ascending order, so each of them once. -/
  ascending : f.signers.Pairwise fun a b => compare a b = .lt
  /-- A key is none of them as long as an envelope holds no signature under it. -/
  not_partial : ∀ k, ∀ e ∈ f.envelopes, e.signatures.get? k = none → k ∉ f.signers
  /-- The verdict is on every signature in every envelope, over the body in that envelope. -/
  verify_iff : f.verify = true ↔ ∀ e ∈ f.envelopes, ∀ k s,
    e.signatures.get? k = some s → k.verify e.body s = true
  /-- Later on all signers are still there, and no verdict improves. -/
  kept : ∀ calls, ∃ g, (t.run calls).frozen = some g ∧ (∀ k ∈ f.signers, k ∈ g.signers) ∧
    (f.verify = false → g.verify = false)
  /-- Who signs all bodies without a failure is a signer from then on. -/
  signed : ∀ signer answer, (f.signWith signer).result = .ok answer → ∀ calls,
    ∃ g, (t.run (.signAll signer :: calls)).frozen = some g ∧ signer.publicKey ∈ g.signers
  /-- So is a key if a list of its signatures is recorded that has every candidate node. -/
  listed : ∀ key list, (f.addToAll key list).result = .ok () →
    (∀ node ∈ f.nodes, ∃ p ∈ list, p.1.number = node.number) → ∀ calls,
    ∃ g, (t.run (.addToAll key list :: calls)).frozen = some g ∧ key ∈ g.signers

/-- **Signers only become more, and a bad signature stays.**  In every state that a transaction
reaches after it was frozen, its signers are the keys with a signature in every envelope, and it
verifies if and only if every signature does over the body it stands with.  No later call, whether
it succeeds or fails, takes a signer away or makes a transaction verify that did not. -/
theorem signers_and_verdict (body : B) (calls : List (Call B))
    (hf : (history body calls).frozen = some f) : (history body calls).KeepsSigners f := by
  have hne := envelopes_ne_nil_of_history hf
  have hiff : ∀ k, k ∈ f.signers ↔ ∀ e ∈ f.envelopes, ∃ s, e.signatures.get? k = some s := fun k =>
    FrozenTransaction.mem_signers_iff.trans (and_iff_right hne)
  refine ⟨hiff, f.ascending_signers, ?_, FrozenTransaction.verify_iff, ?_, ?_, ?_⟩
  · intro k e he hnone hk
    obtain ⟨s, hs⟩ := (hiff k).1 hk e he
    rw [hnone] at hs
    cases hs
  · intro later
    obtain ⟨g, hg, hext⟩ := run_of_frozen hf later
    refine ⟨g, by rw [hg], fun k => hext.mem_signers, fun hbad => ?_⟩
    rw [Bool.eq_false_iff] at hbad ⊢
    exact fun hgood => hbad (hext.verify hgood)
  · intro signer answer hok
    refine mem_signers_run_cons ?_ (FrozenTransaction.mem_signers_signWith hne hok)
    rw [perform, whenFrozen, hf]
    rfl
  · intro key list hok hcover
    refine mem_signers_run_cons ?_ (FrozenTransaction.mem_signers_addToAll hne hok hcover)
    rw [perform, whenFrozen, hf]
    rfl

/-- The memo that was signed for both nodes has one signer, and its signatures do not verify. -/
theorem signers_and_verdict_memo : ∃ f,
    (history ⟨[7]⟩ (Memo.drafting ++ .freeze :: Memo.signing)).frozen = some f ∧
    f.signers = [⟨.replicate 32 5⟩] ∧ f.verify = false ∧
    (history ⟨[7]⟩ (Memo.drafting ++ .freeze :: Memo.signing)).KeepsSigners f := by
  have hstate : (history ⟨[7]⟩ (Memo.drafting ++ .freeze :: Memo.signing)).frozen.map
      (fun f => (f.signers, f.verify)) = some ([⟨.replicate 32 5⟩], false) := by
    decide +kernel
  obtain ⟨f, hf, hboth⟩ := Option.map_eq_some_iff.1 hstate
  obtain ⟨hsigners, hverify⟩ := Prod.mk.inj hboth
  exact ⟨f, hf, hsigners, hverify, signers_and_verdict _ _ hf⟩

end Transaction

end LedgerKit
