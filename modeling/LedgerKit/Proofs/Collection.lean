import LedgerKit.Proofs.Run
import Mathlib.Data.List.Induction

/-!
# Collecting signatures in any order

Several signers sign a frozen transaction, each of them all bodies at once or the body in one
envelope, in any order and as often as they like.  A signature depends on the key and the body
alone, so no two calls contradict each other: what an envelope holds is what the calls that reached
it have made of its body (`Collected`), whatever their order.

* `SigningCall.perform?_spec` : what one call does, if every envelope that it reaches accepts it.
* `FrozenTransaction.Collected.snoc` : one more call succeeds and is collected.
* `FrozenTransaction.collected_after` : what a whole sequence of calls has collected.
* `FrozenTransaction.collected_in_any_order` : the result, once everybody has signed everything.
-/

namespace LedgerKit

/-! ### Signing one body, and all of them -/

namespace Envelope

/-- The envelope after its body was signed. -/
def signedBy (e : Envelope) (signer : Signer) : Envelope :=
  e.withSignatures (e.signWith signer).state

/-- What is recorded after signing was recorded before, or it is the signature of the signer. -/
theorem get?_signedBy_eq_some_iff {e : Envelope} {signer : Signer}
    (h : e.Accepts signer.publicKey (signer.sign e.body)) (k : PublicKey) (s : Signature) :
    (e.signedBy signer).signatures.get? k = some s ↔
      e.signatures.get? k = some s ∨ signer.publicKey = k ∧ signer.sign e.body = s := by
  have hget : (e.signedBy signer).signatures.get? k = _ := (signWith_ok h).2 k
  rw [hget]
  by_cases hk : k = signer.publicKey
  · subst hk
    rw [if_pos rfl, Option.some.injEq]
    constructor
    · exact fun hs => .inr ⟨rfl, hs⟩
    · rintro (hs | ⟨-, hs⟩)
      · exact (h s hs).symm
      · exact hs
  · simp [hk, Ne.symm hk]

end Envelope

namespace FrozenTransaction

variable {signer : Signer} {es before : List Envelope}

/-- Envelopes that accept their signatures are signed, and then it goes on behind them. -/
theorem signEach_append (h : ∀ e ∈ before, e.Accepts signer.publicKey (signer.sign e.body))
    (rest : List Envelope) :
    (signEach signer (before ++ rest)).result =
        (signEach signer rest).result.map ((before.map fun e => signer.sign e.body) ++ ·) ∧
      (signEach signer (before ++ rest)).state =
        (before.map fun e => e.signedBy signer) ++ (signEach signer rest).state := by
  induction before with
  | nil =>
    refine ⟨?_, rfl⟩
    rw [List.nil_append]
    cases (signEach signer rest).result <;> rfl
  | cons e before ih =>
    obtain ⟨hres, hstate⟩ := ih fun x hx => h x (List.mem_cons_of_mem e hx)
    have he := (Envelope.signWith_ok (h e List.mem_cons_self)).1
    refine ⟨?_, ?_⟩
    · simp only [List.cons_append, signEach, he, hres]
      cases (signEach signer rest).result <;> rfl
    · simp only [List.cons_append, signEach, he, hstate]
      rfl

theorem signEach_ok (h : ∀ e ∈ es, e.Accepts signer.publicKey (signer.sign e.body)) :
    (signEach signer es).result = .ok (es.map fun e => signer.sign e.body) ∧
      (signEach signer es).state = es.map fun e => e.signedBy signer := by
  obtain ⟨hres, hstate⟩ := signEach_append h []
  rw [List.append_nil] at hres hstate
  refine ⟨hres.trans ?_, hstate.trans (List.append_nil _)⟩
  exact congrArg Except.ok (List.append_nil _)

end FrozenTransaction

/-! ### Calls that sign -/

/-- A call on a frozen transaction that signs. -/
inductive SigningCall where
  /-- Sign all bodies. -/
  | all (signer : Signer)
  /-- Sign the body in the envelope at a place. -/
  | one (place : ℕ) (signer : Signer)

namespace SigningCall

/-- Who signs. -/
def signer : SigningCall → Signer
  | all signer => signer
  | one _ signer => signer

/-- The call signs the body in the envelope at this place. -/
def Reaches : SigningCall → ℕ → Prop
  | all _, _ => True
  | one place _, i => place = i

instance (c : SigningCall) (i : ℕ) : Decidable (c.Reaches i) :=
  match c with
  | all _ => .isTrue trivial
  | one place _ => inferInstanceAs (Decidable (place = i))

/-- There is an envelope for the call. -/
def Fits (f : FrozenTransaction) : SigningCall → Prop
  | all _ => True
  | one place _ => place < f.envelopes.length

/-- What the call amounts to, with the signatures that it answers; without an envelope, nothing. -/
def perform? (f : FrozenTransaction) :
    SigningCall → Option (Outcome FrozenTransaction (List Signature))
  | all signer => some (f.signWith signer)
  | one place signer => (f.at? place fun e => e.signWith signer).map fun o => o.map fun s => [s]

/-- The signatures of the bodies that the call reaches, in the order of the envelopes. -/
def signatures (f : FrozenTransaction) : SigningCall → List Signature
  | all signer => f.envelopes.map fun e => signer.sign e.body
  | one place signer => (f.envelopes[place]?.map fun e => signer.sign e.body).toList

/-- The call puts this signature under this key into an envelope with this body at this place. -/
def Signs (c : SigningCall) (i : ℕ) (body : Bytes) (k : PublicKey) (s : Signature) : Prop :=
  c.Reaches i ∧ c.signer.publicKey = k ∧ c.signer.sign body = s

variable {f g : FrozenTransaction} {c : SigningCall}

theorem signatures_congr (h : g.envelopes.map Envelope.slot = f.envelopes.map Envelope.slot) :
    c.signatures g = c.signatures f := by
  have hslot : ∀ (x : FrozenTransaction) (signer : Signer),
      x.envelopes.map (fun e => signer.sign e.body) =
        (x.envelopes.map Envelope.slot).map fun s => signer.sign s.2 := by
    intro x signer
    simp [Envelope.slot]
  cases c with
  | all signer => rw [signatures, signatures, hslot, h, hslot]
  | one place signer =>
    rw [signatures, signatures, ← List.getElem?_map, ← List.getElem?_map, hslot, h, hslot]

theorem Fits.congr (hc : c.Fits f) (h : g.envelopes.length = f.envelopes.length) : c.Fits g := by
  cases c with
  | all signer => trivial
  | one place signer => exact Nat.lt_of_lt_of_eq hc h.symm

/-- A call that every envelope accepts signs the envelopes that it reaches, and no other. -/
theorem perform?_spec (hc : c.Fits f) (ha : ∀ i e, f.envelopes[i]? = some e → c.Reaches i →
      e.Accepts c.signer.publicKey (c.signer.sign e.body)) :
    ∃ o, c.perform? f = some o ∧ o.result = .ok (c.signatures f) ∧
      ∀ i, o.state.envelopes[i]? =
        f.envelopes[i]?.map fun e => if c.Reaches i then e.signedBy c.signer else e := by
  cases c with
  | all signer =>
    have hall : ∀ e ∈ f.envelopes, e.Accepts signer.publicKey (signer.sign e.body) := by
      intro e he
      obtain ⟨i, hi⟩ := List.mem_iff_getElem?.1 he
      exact ha i e hi trivial
    obtain ⟨hres, hstate⟩ := FrozenTransaction.signEach_ok hall
    refine ⟨_, rfl, ?_, fun i => ?_⟩
    · rw [FrozenTransaction.signWith, Outcome.result_report]
      exact hres
    · rw [FrozenTransaction.signWith, Outcome.state_report]
      change (FrozenTransaction.signEach signer f.envelopes).state[i]? = _
      rw [hstate, List.getElem?_map]
      rfl
  | one place signer =>
    have hplace : f.envelopes[place]? = some f.envelopes[place] := List.getElem?_eq_getElem hc
    have hacc : f.envelopes[place].Accepts signer.publicKey (signer.sign f.envelopes[place].body) :=
      ha place _ hplace rfl
    refine ⟨_, by rw [perform?, FrozenTransaction.at?, hplace]; rfl, ?_, fun i => ?_⟩
    · simp only [Outcome.map, Outcome.within, (Envelope.signWith_ok hacc).1, Except.map, signatures,
        hplace]
      rfl
    · rw [Outcome.state_map, Outcome.state_within]
      change (f.envelopes.modify place _)[i]? = _
      rw [List.getElem?_modify]
      by_cases hi : place = i
      · subst hi
        simp only [Reaches, hplace, if_pos]
        rfl
      · simp [Reaches, hi]

end SigningCall

/-! ### What has been collected -/

/-- Signers with the same public key sign alike. -/
def Consistent (signers : List Signer) : Prop :=
  ∀ a ∈ signers, ∀ b ∈ signers, a.publicKey = b.publicKey → ∀ body, a.sign body = b.sign body

namespace FrozenTransaction

/-- The transaction after some calls that sign. -/
def after (f : FrozenTransaction) (calls : List SigningCall) : FrozenTransaction :=
  calls.foldl (fun g c => ((c.perform? g).map Outcome.state).getD g) f

/-- The nodes and bodies of `g` are those of `f`, and its signatures are those that the calls have
made, each in the envelopes that the call reached. -/
structure Collected (f g : FrozenTransaction) (calls : List SigningCall) : Prop where
  slots : g.envelopes.map Envelope.slot = f.envelopes.map Envelope.slot
  signatures : ∀ i e, g.envelopes[i]? = some e → ∀ k s, e.signatures.get? k = some s ↔
    ∃ c ∈ calls, c.Signs i e.body k s

/-- The calls are made by these signers on the envelopes there are. -/
def MadeBy (f : FrozenTransaction) (signers : List Signer) (calls : List SigningCall) : Prop :=
  ∀ c ∈ calls, c.signer ∈ signers ∧ c.Fits f

/-- The calls are made by these signers, and every signer reaches every envelope. -/
structure Complete (f : FrozenTransaction) (signers : List Signer) (calls : List SigningCall) :
    Prop where
  made : f.MadeBy signers calls
  reached : ∀ signer ∈ signers, ∀ i < f.envelopes.length, ∃ c ∈ calls, c.signer = signer ∧
    c.Reaches i

variable {f g : FrozenTransaction} {signers : List Signer} {calls before : List SigningCall}
  {c : SigningCall}

theorem after_snoc (f : FrozenTransaction) (calls : List SigningCall) (c : SigningCall) :
    f.after (calls ++ [c]) =
      ((c.perform? (f.after calls)).map Outcome.state).getD (f.after calls) :=
  List.foldl_append

theorem collected_nil (hf : ∀ e ∈ f.envelopes, e.signatures = .empty) : Collected f f [] := by
  refine ⟨rfl, ?_⟩
  intro i e he k s
  simp [hf e (List.mem_of_getElem? he)]

theorem Collected.length (h : Collected f g calls) : g.envelopes.length = f.envelopes.length := by
  simpa using congrArg List.length h.slots

/-- One more call succeeds, and its signatures are collected. -/
theorem Collected.snoc (h : Collected f g before) (hs : Consistent signers)
    (hc : f.MadeBy signers (before ++ [c])) :
    ∃ o, c.perform? g = some o ∧ o.result = .ok (c.signatures f) ∧
      Collected f o.state (before ++ [c]) := by
  obtain ⟨hcs, hfits⟩ := hc c (by simp)
  -- what is recorded under the key was made by the same signing function
  have haccepts : ∀ i e, g.envelopes[i]? = some e → c.Reaches i →
      e.Accepts c.signer.publicKey (c.signer.sign e.body) := by
    intro i e he _ r hr
    obtain ⟨b, hb, -, hkey, rfl⟩ := (h.signatures i e he _ r).1 hr
    exact hs b.signer (hc b (by simp [hb])).1 c.signer hcs hkey e.body
  obtain ⟨o, ho, hres, hstate⟩ := SigningCall.perform?_spec (hfits.congr h.length) haccepts
  have hslot : ∀ (i : ℕ) (e : Envelope),
      (if c.Reaches i then e.signedBy c.signer else e).slot = e.slot := by
    intro i e
    split <;> rfl
  refine ⟨o, ho, ?_, ?_, ?_⟩
  · rw [hres, SigningCall.signatures_congr h.slots]
  · rw [← h.slots]
    apply List.ext_getElem?
    intro i
    simp only [List.getElem?_map, hstate, Option.map_map, Function.comp_def, hslot]
  · intro i e' he' k s
    rw [hstate] at he'
    obtain ⟨e, he, rfl⟩ := Option.map_eq_some_iff.1 he'
    have hbody : (if c.Reaches i then e.signedBy c.signer else e).body = e.body :=
      congrArg Prod.snd (hslot i e)
    have hsplit : (∃ b ∈ before ++ [c], b.Signs i e.body k s) ↔
        (∃ b ∈ before, b.Signs i e.body k s) ∨ c.Signs i e.body k s := by
      simp [or_and_right, exists_or]
    rw [hbody, hsplit, ← h.signatures i e he]
    by_cases hreach : c.Reaches i
    · rw [if_pos hreach, Envelope.get?_signedBy_eq_some_iff (haccepts i e he hreach)]
      simp [SigningCall.Signs, hreach]
    · simp [SigningCall.Signs, hreach]

/-- Any sequence of calls succeeds, call by call, and is collected as a whole. -/
theorem collected_after (hf : ∀ e ∈ f.envelopes, e.signatures = .empty)
    (hs : Consistent signers) (hc : f.MadeBy signers calls) :
    Collected f (f.after calls) calls := by
  induction calls using List.reverseRecOn with
  | nil => exact collected_nil hf
  | append_singleton before c ih =>
    have hbefore : f.MadeBy signers before := fun b hb => hc b (List.mem_append_left _ hb)
    obtain ⟨o, ho, -, hcollected⟩ := (ih hbefore).snoc hs hc
    rw [after_snoc, ho]
    exact hcollected

/-- If everybody has signed everything, an envelope holds the signatures of all signers. -/
theorem Complete.get?_iff (hc : f.Complete signers calls) (h : Collected f g calls) {e : Envelope}
    (he : e ∈ g.envelopes) (k : PublicKey) (s : Signature) : e.signatures.get? k = some s ↔
      ∃ signer ∈ signers, signer.publicKey = k ∧ signer.sign e.body = s := by
  obtain ⟨i, hi, rfl⟩ := List.mem_iff_getElem.1 he
  rw [h.signatures i _ (List.getElem?_eq_getElem hi)]
  constructor
  · rintro ⟨c, hcc, -, hrest⟩
    exact ⟨c.signer, (hc.made c hcc).1, hrest⟩
  · rintro ⟨signer, hsigner, hrest⟩
    obtain ⟨c, hcc, rfl, hreach⟩ := hc.reached signer hsigner i (h.length ▸ hi)
    exact ⟨c, hcc, hreach, hrest⟩

/-- What is collected from one transaction by complete sequences of calls is the same. -/
theorem Complete.eq {g' : FrozenTransaction} {calls' : List SigningCall}
    (hc : f.Complete signers calls) (h : Collected f g calls) (hc' : f.Complete signers calls')
    (h' : Collected f g' calls') : g = g' := by
  apply eq_of_envelopes
  apply List.ext_getElem (h.length.trans h'.length.symm)
  intro i hi hi'
  have hslot : g.envelopes[i].slot = g'.envelopes[i].slot := by
    have hget := congrArg (·[i]?) (h.slots.trans h'.slots.symm)
    simpa [hi, hi'] using hget
  have hbody : g.envelopes[i].body = g'.envelopes[i].body := congrArg Prod.snd hslot
  refine Envelope.eq_of_gets hslot fun k => Option.ext fun s => ?_
  rw [hc.get?_iff h (List.getElem_mem hi), hbody, hc'.get?_iff h' (List.getElem_mem hi')]

theorem mem_signers_iff {k : PublicKey} : k ∈ f.signers ↔
    f.envelopes ≠ [] ∧ ∀ e ∈ f.envelopes, ∃ s, e.signatures.get? k = some s := by
  unfold FrozenTransaction.signers
  cases f.envelopes with
  | nil => simp
  | cons e es => simp [SortedMap.mem_keys_iff, Option.isSome_iff_exists]

theorem Complete.mem_signers_iff (hc : f.Complete signers calls) (h : Collected f g calls)
    (hne : f.envelopes ≠ []) (k : PublicKey) :
    k ∈ g.signers ↔ ∃ signer ∈ signers, signer.publicKey = k := by
  have hne : g.envelopes ≠ [] := by
    intro hnil
    have hlen := h.length
    rw [hnil] at hlen
    exact hne (List.length_eq_zero_iff.1 hlen.symm)
  rw [FrozenTransaction.mem_signers_iff]
  constructor
  · rintro ⟨-, hall⟩
    obtain ⟨e, he⟩ := List.exists_mem_of_ne_nil _ hne
    obtain ⟨s, hs⟩ := hall e he
    obtain ⟨signer, hsigner, hkey, -⟩ := (hc.get?_iff h he k s).1 hs
    exact ⟨signer, hsigner, hkey⟩
  · rintro ⟨signer, hsigner, hkey⟩
    exact ⟨hne, fun e he => ⟨_, (hc.get?_iff h he k _).2 ⟨signer, hsigner, hkey, rfl⟩⟩⟩

theorem verify_iff : f.verify = true ↔ ∀ e ∈ f.envelopes, ∀ k s,
    e.signatures.get? k = some s → k.verify e.body s = true := by
  simp [verify, Envelope.verify, SortedMap.get?_eq_some_iff]

/-- What has been collected verifies if the signatures of those who signed do. -/
theorem Collected.verify (h : Collected f g calls) (hv : ∀ c ∈ calls, ∀ e ∈ f.envelopes,
      c.signer.publicKey.verify e.body (c.signer.sign e.body) = true) : g.verify = true := by
  rw [verify_iff]
  intro e he k s hks
  obtain ⟨i, hi, rfl⟩ := List.mem_iff_getElem.1 he
  obtain ⟨c, hc, -, rfl, rfl⟩ := (h.signatures i _ (List.getElem?_eq_getElem hi) k s).1 hks
  -- the body is that of an envelope of `f`
  have hslot : g.envelopes[i].slot ∈ f.envelopes.map Envelope.slot :=
    h.slots ▸ List.mem_map_of_mem (List.getElem_mem hi)
  obtain ⟨e₀, he₀, hslot₀⟩ := List.mem_map.1 hslot
  have hbody : e₀.body = g.envelopes[i].body := congrArg Prod.snd hslot₀
  rw [← hbody]
  exact hv c hc e₀ he₀

/-! ### From the freeze to the last signature -/

variable {B : Type} [TransactionBody B] {t : Transaction B} {offered : List AccountId}

/-- A transaction that has just been frozen has envelopes, and no signature in them. -/
theorem fresh_of_freezeWith (ht : t.frozen = none) (hf : (t.freezeWith offered).result = .ok f) :
    f.envelopes ≠ [] ∧ ∀ e ∈ f.envelopes, e.signatures = .empty := by
  obtain ⟨hne, hrender, -⟩ := Transaction.freezeWith_ok ht hf
  have hwritten := Transaction.forall₂_of_render hrender
  refine ⟨?_, fun e he => ?_⟩
  · intro hnil
    rw [hnil] at hwritten
    exact hne (List.forall₂_nil_right_iff.1 hwritten)
  · obtain ⟨node, -, hnode⟩ := exists_of_forall₂ hwritten he
    exact hnode.2.2

/-- What comes of a complete sequence of calls on a transaction without signatures. -/
structure Confluent (f : FrozenTransaction) (signers : List Signer) (calls : List SigningCall) :
    Prop where
  /-- Every call succeeds, and answers the signatures of the bodies that it reaches, in the order of
  the envelopes. -/
  answers : ∀ before c rest, calls = before ++ c :: rest →
    ∃ o, c.perform? (f.after before) = some o ∧ o.result = .ok (c.signatures f)
  /-- The nodes and bodies stay. -/
  slots : (f.after calls).envelopes.map Envelope.slot = f.envelopes.map Envelope.slot
  /-- Under the key of each signer an envelope holds the signature of its body, and no other. -/
  recorded : ∀ e ∈ (f.after calls).envelopes, ∀ k s, e.signatures.get? k = some s ↔
    ∃ signer ∈ signers, signer.publicKey = k ∧ signer.sign e.body = s
  /-- The keys that have signed every body are those of the signers. -/
  signed_by : ∀ k, k ∈ (f.after calls).signers ↔ ∃ signer ∈ signers, signer.publicKey = k
  /-- Any other complete sequence of calls ends in the same state. -/
  same_state : ∀ calls', f.Complete signers calls' → f.after calls' = f.after calls
  /-- If the signers are private keys, and what they sign verifies, then all signatures verify at
  every moment. -/
  verifies : ∀ keys : List PrivateKey, signers = keys.map PrivateKey.toSigner →
    (∀ key ∈ keys, ∀ e ∈ f.envelopes, key.publicKey.verify e.body (key.sign e.body) = true) →
    ∀ before rest, calls = before ++ rest → (f.after before).verify = true

/-- **Signatures can be collected in any order.**  Signers sign a transaction that has just been
frozen, in calls of either kind and in any order, until each of them has signed every body. -/
theorem collected_in_any_order (ht : t.frozen = none)
    (hf : (t.freezeWith offered).result = .ok f) (hs : Consistent signers)
    (hc : f.Complete signers calls) : f.Confluent signers calls := by
  obtain ⟨hne, hempty⟩ := fresh_of_freezeWith ht hf
  have hpart : ∀ before rest, calls = before ++ rest → f.MadeBy signers before := by
    rintro before rest rfl c hcb
    exact hc.made c (List.mem_append_left _ hcb)
  have hfinal := collected_after hempty hs hc.made
  refine ⟨?_, hfinal.slots, fun e he => hc.get?_iff hfinal he, hc.mem_signers_iff hfinal hne,
    ?_, ?_⟩
  · intro before c rest hsplit
    have hmade : f.MadeBy signers (before ++ [c]) := hpart _ rest (by simp [hsplit])
    have hbefore := collected_after hempty hs (hpart before (c :: rest) hsplit)
    obtain ⟨o, ho, hres, -⟩ := hbefore.snoc hs hmade
    exact ⟨o, ho, hres⟩
  · intro calls' hc'
    exact hc'.eq (collected_after hempty hs hc'.made) hc hfinal
  · rintro keys rfl hed before rest hsplit
    have hmade := hpart before rest hsplit
    refine (collected_after hempty hs hmade).verify fun c hcb e he => ?_
    obtain ⟨key, hkey, hsigner⟩ := List.mem_map.1 (hmade c hcb).1
    rw [← hsigner]
    exact hed key hkey e he

/-- What the last clause assumes of private keys is so for this one. -/
example : (PrivateKey.publicKey ⟨.replicate 32 5, none⟩).verify [7, 3]
    (PrivateKey.sign ⟨.replicate 32 5, none⟩ [7, 3]) = true := by
  decide +kernel

end FrozenTransaction

namespace Transaction.Memo

/-- A draft for two nodes. -/
def forTwo : Transaction Memo :=
  { body := ⟨[7]⟩, pinned := some [.ofNumbers 0 0 3, .ofNumbers 0 0 4] }

/-- What it is when it is frozen. -/
def frozenForTwo : FrozenTransaction :=
  ⟨[⟨.ofNumbers 0 0 3, [7, 3], .empty⟩, ⟨.ofNumbers 0 0 4, [7, 4], .empty⟩], by decide⟩

/-- A signer that adds a number of its own to the number that the body is. -/
def adding (n : UInt8) : Signer :=
  ⟨⟨.replicate 32 n⟩, fun body => ⟨.ofNatBE 64 (Bytes.bigEndian body + n.toNat)⟩⟩

/-- One signer signs one body and then the other, and later both again; another signs both. -/
def interleaved : List SigningCall :=
  [.one 1 (adding 5), .all (adding 6), .one 0 (adding 5), .all (adding 5)]

end Transaction.Memo

namespace FrozenTransaction

open Transaction (Memo)

theorem collected_in_any_order_memo :
    Memo.forTwo.frozen = none ∧
    (Memo.forTwo.freezeWith []).result = .ok Memo.frozenForTwo ∧
    Consistent [Memo.adding 5, Memo.adding 6] ∧
    Memo.frozenForTwo.Complete [Memo.adding 5, Memo.adding 6] Memo.interleaved ∧
    Memo.frozenForTwo.Confluent [Memo.adding 5, Memo.adding 6] Memo.interleaved := by
  have hfrozen : (Memo.forTwo.freezeWith []).result = .ok Memo.frozenForTwo := rfl
  have hkeys : (Memo.adding 5).publicKey ≠ (Memo.adding 6).publicKey := by decide
  have hconsistent : Consistent [Memo.adding 5, Memo.adding 6] := by
    intro a ha b hb hab
    simp only [List.mem_cons, List.not_mem_nil, or_false] at ha hb
    rcases ha with rfl | rfl <;> rcases hb with rfl | rfl
    · exact fun _ => rfl
    · exact absurd hab hkeys
    · exact absurd hab.symm hkeys
    · exact fun _ => rfl
  have hcomplete :
      Memo.frozenForTwo.Complete [Memo.adding 5, Memo.adding 6] Memo.interleaved := by
    refine ⟨?_, ?_⟩
    · intro c hc
      simp only [Memo.interleaved, List.mem_cons, List.not_mem_nil, or_false] at hc
      rcases hc with rfl | rfl | rfl | rfl
      all_goals simp [SigningCall.signer, SigningCall.Fits, Memo.frozenForTwo]
    · intro signer hsigner i _
      simp only [List.mem_cons, List.not_mem_nil, or_false] at hsigner
      rcases hsigner with rfl | rfl
      · exact ⟨.all (Memo.adding 5), by simp [Memo.interleaved], rfl, trivial⟩
      · exact ⟨.all (Memo.adding 6), by simp [Memo.interleaved], rfl, trivial⟩
  exact ⟨rfl, hfrozen, hconsistent, hcomplete,
    collected_in_any_order rfl hfrozen hconsistent hcomplete⟩

end FrozenTransaction

end LedgerKit
