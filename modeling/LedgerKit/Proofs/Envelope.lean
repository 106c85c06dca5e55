import LedgerKit.Proofs.SortedMap
import LedgerKit.Transaction.Envelope

/-!
# Signatures are recorded once

What recording a signature does to an envelope, in every case (`Envelope.insert_cases`), and the
order in which envelopes grow: `Envelope.Extends e e'` says that `e'` has the node, the body and all
the signatures of `e`, and perhaps more signatures.

* `Envelope.extends_insert`, `Envelope.extends_signWith` : every operation on an envelope extends
  it, also when it fails.
* `Envelope.eq_of_gets` : an envelope is determined by its node, its body and what its signatures
  look up.
-/

namespace LedgerKit

@[simp] theorem Outcome.state_report {σ α : Type} (o : Outcome σ α)
    (event : α → TransactionEvent) : (o.report event).state = o.state := by
  unfold report andThen
  split <;> rfl

@[simp] theorem Outcome.result_report {σ α : Type} (o : Outcome σ α)
    (event : α → TransactionEvent) : (o.report event).result = o.result := by
  unfold report andThen
  split
  · next h => exact h.symm
  · next h => exact h.symm

namespace Envelope

variable (e : Envelope) (key : PublicKey) (s : Signature)

/-! ### What recording a signature does -/

/-- The three cases of recording a signature: the key is new, it repeats itself, or it contradicts
itself. -/
theorem insert_cases :
    (e.signatures.get? key = none ∧
      e.insert key s =
        ⟨.ok true, e.signatures.insert key s, [.signatureAdded e.node.number key]⟩) ∨
    (e.signatures.get? key = some s ∧
      e.insert key s = ⟨.ok false, e.signatures, [.signaturePresent e.node.number key]⟩) ∨
    ∃ r, e.signatures.get? key = some r ∧ r ≠ s ∧
      e.insert key s =
        ⟨.error (.signatureConflict key), e.signatures, [.conflictRejected e.node.number key]⟩ := by
  unfold insert
  cases h : e.signatures.get? key with
  | none => exact .inl ⟨rfl, rfl⟩
  | some r =>
    by_cases hr : r = s
    · subst hr
      exact .inr (.inl ⟨rfl, by simp⟩)
    · exact .inr (.inr ⟨r, rfl, hr, by simp [hr]⟩)

/-- A signature is accepted unless another one is recorded under its key. -/
def Accepts : Prop := ∀ r, e.signatures.get? key = some r → r = s

variable {e key s}

theorem insert_error (h : ¬ e.Accepts key s) :
    e.insert key s =
      ⟨.error (.signatureConflict key), e.signatures, [.conflictRejected e.node.number key]⟩ := by
  obtain ⟨hn, -⟩ | ⟨hs, -⟩ | ⟨-, -, -, hi⟩ := insert_cases e key s
  · refine absurd ?_ h
    intro r hr
    rw [hn] at hr
    cases hr
  · refine absurd ?_ h
    intro r hr
    rw [hs] at hr
    exact (Option.some.inj hr).symm
  · exact hi

/-- An accepted signature is found under its key afterwards, and nothing else has changed. -/
theorem insert_ok (h : e.Accepts key s) :
    (∃ new, (e.insert key s).result = .ok new) ∧
      ∀ k, (e.insert key s).state.get? k = if k = key then some s else e.signatures.get? k := by
  obtain ⟨-, hi⟩ | ⟨hs, hi⟩ | ⟨r, hr, hne, -⟩ := insert_cases e key s
  · rw [hi]
    refine ⟨⟨true, rfl⟩, ?_⟩
    intro k
    by_cases hk : k = key
    · subst hk; simp
    · simp [SortedMap.get?_insert_of_ne _ _ hk, hk]
  · rw [hi]
    refine ⟨⟨false, rfl⟩, ?_⟩
    intro k
    by_cases hk : k = key
    · subst hk; simp [hs]
    · simp [hk]
  · exact absurd (h r hr) hne

variable {signer : Signer}

/-- A signer whose signature is accepted answers it, and it is recorded. -/
theorem signWith_ok (h : e.Accepts signer.publicKey (signer.sign e.body)) :
    (e.signWith signer).result = .ok (signer.sign e.body) ∧
      ∀ k, (e.signWith signer).state.get? k =
        if k = signer.publicKey then some (signer.sign e.body) else e.signatures.get? k := by
  obtain ⟨⟨new, hnew⟩, hget⟩ := insert_ok h
  refine ⟨?_, hget⟩
  simp only [signWith, Outcome.map, hnew, Except.map]

theorem signWith_error (h : ¬ e.Accepts signer.publicKey (signer.sign e.body)) :
    (e.signWith signer).result = .error (.signatureConflict signer.publicKey) ∧
      (e.signWith signer).state = e.signatures := by
  simp [signWith, Outcome.map, insert_error h, Except.map]

/-! ### The order in which envelopes grow -/

/-- The node and the body stay, and so does every signature that is recorded. -/
def Extends (e e' : Envelope) : Prop :=
  e'.slot = e.slot ∧ ∀ k r, e.signatures.get? k = some r → e'.signatures.get? k = some r

@[refl] theorem Extends.refl (e : Envelope) : e.Extends e := ⟨rfl, fun _ _ h => h⟩

theorem Extends.trans {a b c : Envelope} (hab : a.Extends b) (hbc : b.Extends c) : a.Extends c :=
  ⟨hbc.1.trans hab.1, fun k r h => hbc.2 k r (hab.2 k r h)⟩

theorem extends_insert : e.Extends (e.withSignatures (e.insert key s).state) := by
  refine ⟨rfl, ?_⟩
  intro k r hk
  obtain ⟨hn, hi⟩ | ⟨-, hi⟩ | ⟨-, -, -, hi⟩ := insert_cases e key s
  · -- the new key had no signature, so it is not the one that is looked up
    have hne : k ≠ key := by
      rintro rfl
      simp [hn] at hk
    simpa [hi, withSignatures, SortedMap.get?_insert_of_ne _ _ hne] using hk
  · simpa [hi, withSignatures] using hk
  · simpa [hi, withSignatures] using hk

variable (signer)

theorem extends_signWith : e.Extends (e.withSignatures (e.signWith signer).state) :=
  extends_insert

/-- What is reported of a signature plays no part in it. -/
theorem extends_report (event : Signature → TransactionEvent) :
    e.Extends (e.withSignatures ((e.signWith signer).report event).state) := by
  rw [Outcome.state_report]
  exact extends_signWith signer

/-- Envelopes for one node, with one body, in which the same signatures are found are equal. -/
theorem eq_of_gets {a b : Envelope} (hslot : a.slot = b.slot)
    (h : ∀ k, a.signatures.get? k = b.signatures.get? k) : a = b := by
  obtain ⟨_, _, _⟩ := a
  obtain ⟨_, _, _⟩ := b
  simp only [slot, Prod.mk.injEq] at hslot
  obtain ⟨rfl, rfl⟩ := hslot
  congr
  exact SortedMap.ext_get? h

end Envelope

end LedgerKit
