import LedgerKit.Proofs.Collection
import LedgerKit.Proofs.Lists

/-!
# Signing all bodies, whatever was signed before

All bodies of a frozen transaction are signed in turn.  An envelope accepts its signature unless it
holds another one under the key, and the first that does ends the call: the envelopes before it are
signed and stay so, and it and all after it are left as they are.

* `FrozenTransaction.signEach_cases` : the two ways in which a list of envelopes is signed.
* `FrozenTransaction.signEach_again` : signing what was left behind changes nothing more.
* `FrozenTransaction.signed_up_to_conflict` : both for a transaction, in terms of what is recorded.
-/

namespace LedgerKit

variable {signer : Signer}

/-! ### One envelope -/

namespace Envelope

variable {e : Envelope}

/-- The envelope holds no signature under the key of the signer, or the one that the signer makes of
its body. -/
abbrev AcceptsFrom (e : Envelope) (signer : Signer) : Prop :=
  e.Accepts signer.publicKey (signer.sign e.body)

/-- The node, the body and the signatures under all other keys are the same. -/
def SameExcept (key : PublicKey) (e e' : Envelope) : Prop :=
  e'.slot = e.slot ∧ ∀ k ≠ key, e'.signatures.get? k = e.signatures.get? k

/-- The signature of the signer is recorded in `e'`, be it new or not, and all else is as in `e`. -/
structure GainsFrom (signer : Signer) (e e' : Envelope) : Prop where
  /-- The signature under the key of the signer. -/
  own : e'.signatures.get? signer.publicKey = some (signer.sign e.body)
  /-- All else. -/
  others : e.SameExcept signer.publicKey e'

theorem gainsFrom_signedBy (h : e.AcceptsFrom signer) : e.GainsFrom signer (e.signedBy signer) := by
  have hget : ∀ k, (e.signedBy signer).signatures.get? k = _ := (signWith_ok h).2
  refine ⟨?_, rfl, fun k hk => ?_⟩
  · rw [hget, if_pos rfl]
  · rw [hget, if_neg hk]

/-- An envelope that holds another signature is left as it is. -/
theorem signedBy_of_not (h : ¬ e.AcceptsFrom signer) : e.signedBy signer = e := by
  rw [signedBy, (signWith_error h).2]
  rfl

theorem sameExcept_signedBy : e.SameExcept signer.publicKey (e.signedBy signer) := by
  by_cases h : e.AcceptsFrom signer
  · exact (gainsFrom_signedBy h).others
  · rw [signedBy_of_not h]
    exact ⟨rfl, fun _ _ => rfl⟩

/-- A signature that is recorded is accepted again. -/
theorem acceptsFrom_signedBy (h : e.AcceptsFrom signer) :
    (e.signedBy signer).AcceptsFrom signer := by
  intro r hr
  rw [(gainsFrom_signedBy h).own] at hr
  exact (Option.some.inj hr).symm

/-- Signing twice is signing once. -/
theorem signedBy_signedBy (h : e.AcceptsFrom signer) :
    (e.signedBy signer).signedBy signer = e.signedBy signer := by
  have hagain := gainsFrom_signedBy (acceptsFrom_signedBy h)
  refine eq_of_gets hagain.others.1 fun k => ?_
  by_cases hk : k = signer.publicKey
  · rw [hk, hagain.own, (gainsFrom_signedBy h).own]
    rfl
  · exact hagain.others.2 k hk

end Envelope

/-! ### A list of envelopes -/

namespace FrozenTransaction

/-- The envelopes after their bodies were signed. -/
def signedAll (signer : Signer) (es : List Envelope) : List Envelope :=
  es.map fun e => e.signedBy signer

variable {es before : List Envelope} {e : Envelope}

theorem forall₂_gainsFrom (h : ∀ e ∈ es, e.AcceptsFrom signer) :
    List.Forall₂ (Envelope.GainsFrom signer) es (signedAll signer es) :=
  List.forall₂_map_right_iff.2
    (List.forall₂_same.2 fun e he => Envelope.gainsFrom_signedBy (h e he))

theorem acceptsFrom_signedAll (h : ∀ e ∈ es, e.AcceptsFrom signer) :
    ∀ e ∈ signedAll signer es, e.AcceptsFrom signer := by
  intro e' he'
  obtain ⟨e, he, rfl⟩ := List.mem_map.1 he'
  exact Envelope.acceptsFrom_signedBy (h e he)

theorem signedAll_signedAll (h : ∀ e ∈ es, e.AcceptsFrom signer) :
    signedAll signer (signedAll signer es) = signedAll signer es := by
  rw [signedAll, signedAll, List.map_map]
  exact List.map_congr_left fun e he => Envelope.signedBy_signedBy (h e he)

/-- Signing changes no body. -/
theorem map_sign_signedAll :
    ((signedAll signer es).map fun e => signer.sign e.body) =
      es.map fun e => signer.sign e.body := by
  rw [signedAll, List.map_map]
  rfl

/-- An envelope with another signature under the key ends it, before anything has changed. -/
theorem signEach_conflict (h : ¬ e.AcceptsFrom signer) (after : List Envelope) :
    (signEach signer (e :: after)).result = .error (.signatureConflict signer.publicKey) ∧
      (signEach signer (e :: after)).state = e :: after := by
  obtain ⟨hres, hstate⟩ := Envelope.signWith_error h
  refine ⟨?_, ?_⟩
  · simp only [signEach, hres]
  · simp only [signEach, hres, hstate]
    rfl

theorem signEach_append_conflict (hbefore : ∀ e ∈ before, e.AcceptsFrom signer)
    (he : ¬ e.AcceptsFrom signer) (after : List Envelope) :
    (signEach signer (before ++ e :: after)).result =
        .error (.signatureConflict signer.publicKey) ∧
      (signEach signer (before ++ e :: after)).state =
        signedAll signer before ++ e :: after := by
  obtain ⟨hres, hstate⟩ := signEach_append hbefore (e :: after)
  rw [hres, hstate, (signEach_conflict he after).1, (signEach_conflict he after).2]
  exact ⟨rfl, rfl⟩

variable (signer es)

/-- Every envelope accepts its signature and all are signed, or they are signed up to the first that
does not. -/
theorem signEach_cases :
    ((∀ e ∈ es, e.AcceptsFrom signer) ∧
      (signEach signer es).result = .ok (es.map fun e => signer.sign e.body) ∧
      (signEach signer es).state = signedAll signer es) ∨
    ∃ before e after, es = before ++ e :: after ∧ (∀ x ∈ before, x.AcceptsFrom signer) ∧
      ¬ e.AcceptsFrom signer ∧
      (signEach signer es).result = .error (.signatureConflict signer.publicKey) ∧
      (signEach signer es).state = signedAll signer before ++ e :: after := by
  by_cases h : ∀ e ∈ es, e.AcceptsFrom signer
  · exact .inl ⟨h, signEach_ok h⟩
  · obtain ⟨before, e, after, rfl, hbefore, he⟩ := exists_first_not h
    exact .inr ⟨before, e, after, rfl, hbefore, he, signEach_append_conflict hbefore he after⟩

/-- Signing again has the same answer and leaves everything as it is. -/
theorem signEach_again :
    (signEach signer (signEach signer es).state).result = (signEach signer es).result ∧
      (signEach signer (signEach signer es).state).state = (signEach signer es).state := by
  obtain ⟨hall, hres, hstate⟩ | ⟨before, e, after, -, hbefore, he, hres, hstate⟩ :=
    signEach_cases signer es
  · obtain ⟨hres', hstate'⟩ := signEach_ok (acceptsFrom_signedAll hall)
    rw [hstate, hres, hres', map_sign_signedAll]
    exact ⟨rfl, hstate'.trans (signedAll_signedAll hall)⟩
  · -- the envelopes before the conflict accept their signatures again, and it is still there
    obtain ⟨hres', hstate'⟩ :=
      signEach_append_conflict (acceptsFrom_signedAll hbefore) he after
    rw [hstate, hres, hres', hstate', signedAll_signedAll hbefore]
    exact ⟨rfl, rfl⟩

/-- Whatever the answer, nothing changes but what is recorded under the key. -/
theorem sameExcept_signEach :
    List.Forall₂ (Envelope.SameExcept signer.publicKey) es (signEach signer es).state := by
  induction es with
  | nil => exact .nil
  | cons e es ih =>
    simp only [signEach]
    split
    · exact .cons Envelope.sameExcept_signedBy
        (List.forall₂_same.2 fun x _ => ⟨rfl, fun _ _ => rfl⟩)
    · exact .cons Envelope.sameExcept_signedBy ih

/-! ### A transaction -/

variable (f : FrozenTransaction)

theorem result_signWith : (f.signWith signer).result = (signEach signer f.envelopes).result :=
  Outcome.result_report _ _

theorem envelopes_signWith :
    (f.signWith signer).state.envelopes = (signEach signer f.envelopes).state := by
  rw [signWith, Outcome.state_report]
  rfl

theorem signWith_again :
    ((f.signWith signer).state.signWith signer).result = (f.signWith signer).result ∧
      ((f.signWith signer).state.signWith signer).state = (f.signWith signer).state := by
  obtain ⟨hres, hstate⟩ := signEach_again signer f.envelopes
  refine ⟨?_, eq_of_envelopes ?_⟩
  · rw [result_signWith, envelopes_signWith, hres, result_signWith]
  · rw [envelopes_signWith, envelopes_signWith, hstate]

/-- **All bodies are signed, or those before the first conflict.**  If no envelope holds another
signature under the key of the signer, the answer has the signatures in the order of the envelopes
and each envelope holds its own.  Otherwise the call fails for that key; the envelopes before the
first that holds another signature hold their own, and this one and all after it are as before.
Either way nothing changes under another key, and the same call again has the same answer and
changes nothing more. -/
theorem signed_up_to_conflict :
    ((∀ e ∈ f.envelopes, e.AcceptsFrom signer) →
      (f.signWith signer).result = .ok (f.envelopes.map fun e => signer.sign e.body) ∧
      List.Forall₂ (Envelope.GainsFrom signer) f.envelopes (f.signWith signer).state.envelopes) ∧
    ((¬ ∀ e ∈ f.envelopes, e.AcceptsFrom signer) →
      (f.signWith signer).result = .error (.signatureConflict signer.publicKey) ∧
      ∃ before first after signed, f.envelopes = before ++ first :: after ∧
        (∀ e ∈ before, e.AcceptsFrom signer) ∧ ¬ first.AcceptsFrom signer ∧
        (f.signWith signer).state.envelopes = signed ++ first :: after ∧
        List.Forall₂ (Envelope.GainsFrom signer) before signed) ∧
    List.Forall₂ (Envelope.SameExcept signer.publicKey) f.envelopes
      (f.signWith signer).state.envelopes ∧
    ((f.signWith signer).state.signWith signer).result = (f.signWith signer).result ∧
    ((f.signWith signer).state.signWith signer).state = (f.signWith signer).state := by
  have hsame := sameExcept_signEach signer f.envelopes
  have hagain := signWith_again signer f
  obtain ⟨hall, hres, hstate⟩ | ⟨before, first, after, hsplit, hbefore, hfirst, hres, hstate⟩ :=
    signEach_cases signer f.envelopes
  · refine ⟨fun _ => ⟨?_, ?_⟩, fun hnot => absurd hall hnot, ?_, hagain⟩
    · rw [result_signWith, hres]
    · rw [envelopes_signWith, hstate]
      exact forall₂_gainsFrom hall
    · rwa [envelopes_signWith]
  · refine ⟨fun hall => ?_, fun _ => ⟨?_, before, first, after, signedAll signer before, hsplit,
      hbefore, hfirst, ?_, forall₂_gainsFrom hbefore⟩, ?_, hagain⟩
    · exact absurd (hall first (by simp [hsplit])) hfirst
    · rw [result_signWith, hres]
    · rw [envelopes_signWith, hstate]
    · rwa [envelopes_signWith]

end FrozenTransaction

end LedgerKit
