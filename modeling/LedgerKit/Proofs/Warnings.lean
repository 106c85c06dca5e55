import LedgerKit.Proofs.Journal
import LedgerKit.Proofs.Listed

/-!
# Which conflicts are warned of

When a signature is refused because another one is recorded under its key, a warning names the node
and the key.  There is one exception: a list that has two different signatures for one node is
refused with the same error, but without a warning.

* `FrozenTransaction.collect_eq_listedTwice_iff` : when the exception applies.
* `Transaction.perform_contradicts_or_warns` : every call on a frozen transaction is such a list, or
  it warns if and only if it ends in a conflict (`Outcome.Warns`).
* `Transaction.conflicts_warned` : calls and whole runs.
* `Transaction.listed_twice_not_warned` : a list that is refused without a warning.
-/

namespace LedgerKit

/-! ### Warnings -/

/-- The warnings among the lines that some events are logged as. -/
def warnings (events : List TransactionEvent) : List LogLine :=
  (events.map TransactionEvent.toLogLine).filter fun line => line.level = .warn

/-- The warning that a signature under a key was refused for a node. -/
def conflictWarning (n : EntityNumber) (key : PublicKey) : LogLine :=
  ⟨.warn, "rejected conflicting signature", [("node", s!"{n}"), ("signer", key.inspect)]⟩

theorem warnings_append (events events' : List TransactionEvent) :
    warnings (events ++ events') = warnings events ++ warnings events' := by
  simp [warnings]

namespace Outcome

variable {σ τ α β : Type}

/-- The operation was refused because of another signature under the same key. -/
def isConflict (o : Outcome σ α) : Bool :=
  match o.result with
  | .error (.signatureConflict _) => true
  | _ => false

variable {o : Outcome σ α}

theorem isConflict_iff :
    o.isConflict = true ↔ ∃ key, o.result = .error (.signatureConflict key) := by
  unfold isConflict
  split
  · next key h => simp [h]
  · next h => simpa using h

theorem isConflict_of_ok {a : α} (h : o.result = .ok a) : o.isConflict = false := by
  rw [isConflict, h]

/-- A conflict comes with one warning, which names a node and a key for which `Refused` holds;
without a conflict there is no warning. -/
def Warns (Refused : EntityNumber → PublicKey → Prop) (o : Outcome σ α) : Prop :=
  (∃ n key, Refused n key ∧ o.result = .error (.signatureConflict key) ∧
    warnings o.events = [conflictWarning n key]) ∨
  (o.isConflict = false ∧ warnings o.events = [])

variable {Refused : EntityNumber → PublicKey → Prop}

theorem warns_ok (s : σ) (a : α) : (ok s a).Warns Refused := .inr ⟨rfl, rfl⟩

theorem Warns.imp {Refused' : EntityNumber → PublicKey → Prop} (h : o.Warns Refused)
    (hR : ∀ n key, Refused n key → Refused' n key) : o.Warns Refused' := by
  obtain ⟨n, key, hr, hres, hw⟩ | hquiet := h
  · exact .inl ⟨n, key, hR n key hr, hres, hw⟩
  · exact .inr hquiet

/-- Only the warnings and the conflict matter. -/
theorem Warns.congr {o' : Outcome τ β} (h : o.Warns Refused)
    (hevents : warnings o'.events = warnings o.events)
    (hresult : ∀ key, o'.result = .error (.signatureConflict key) ↔
      o.result = .error (.signatureConflict key)) : o'.Warns Refused := by
  obtain ⟨n, key, hr, hres, hw⟩ | ⟨hno, hw⟩ := h
  · exact .inl ⟨n, key, hr, (hresult key).2 hres, hevents.trans hw⟩
  · refine .inr ⟨?_, hevents.trans hw⟩
    rw [Bool.eq_false_iff, ne_eq, isConflict_iff] at hno ⊢
    rintro ⟨key, hkey⟩
    exact hno ⟨key, (hresult key).1 hkey⟩

theorem map_eq_error_iff {ε : Type} {r : Except ε α} {f : α → β} {e : ε} :
    r.map f = .error e ↔ r = .error e := by
  cases r <;> simp [Except.map]

theorem Warns.map (h : o.Warns Refused) (f : α → β) : (o.map f).Warns Refused :=
  h.congr rfl fun _ => map_eq_error_iff

theorem Warns.withState (h : o.Warns Refused) (t : τ) :
    (Outcome.mk o.result t o.events).Warns Refused :=
  h.congr rfl fun _ => Iff.rfl

theorem Warns.within (h : o.Warns Refused) (put : σ → τ) : (o.within put).Warns Refused :=
  h.withState _

/-- An event that is no warning makes no difference. -/
theorem Warns.report (h : o.Warns Refused) {event : α → TransactionEvent}
    (hevent : ∀ a, (event a).toLogLine.level ≠ .warn) : (o.report event).Warns Refused := by
  refine h.congr ?_ fun key => by rw [result_report]
  unfold Outcome.report Outcome.andThen
  split
  · rfl
  · next a _ => simp [warnings, hevent a]

theorem Warns.of_conflict (h : o.Warns Refused) {key : PublicKey}
    (hres : o.result = .error (.signatureConflict key)) :
    ∃ n, Refused n key ∧ warnings o.events = [conflictWarning n key] := by
  obtain ⟨n, k, hr, hk, hw⟩ | ⟨hno, -⟩ := h
  · obtain rfl : key = k := by simpa [hres] using hk
    exact ⟨n, hr, hw⟩
  · rw [isConflict_iff.2 ⟨key, hres⟩] at hno
    cases hno

theorem Warns.of_no_conflict (h : o.Warns Refused) (hno : o.isConflict = false) :
    warnings o.events = [] := by
  obtain ⟨-, key, -, hres, -⟩ | ⟨-, hw⟩ := h
  · rw [isConflict_iff.2 ⟨key, hres⟩] at hno
    cases hno
  · exact hw

end Outcome

/-! ### One envelope -/

namespace Envelope

theorem warns_insert (e : Envelope) (key : PublicKey) (s : Signature) :
    (e.insert key s).Warns fun n k => n = e.node.number ∧ k = key ∧ ¬ e.Accepts key s := by
  obtain ⟨-, hi⟩ | ⟨-, hi⟩ | ⟨r, hr, hne, hi⟩ := insert_cases e key s
  · rw [hi]
    exact .inr ⟨rfl, rfl⟩
  · rw [hi]
    exact .inr ⟨rfl, rfl⟩
  · rw [hi]
    exact .inl ⟨e.node.number, key, ⟨rfl, rfl, fun h => hne (h r hr)⟩, rfl, rfl⟩

theorem warns_signWith (e : Envelope) (signer : Signer) :
    (e.signWith signer).Warns fun n k => n = e.node.number ∧ k = signer.publicKey ∧
      ¬ e.Accepts signer.publicKey (signer.sign e.body) :=
  (warns_insert e signer.publicKey (signer.sign e.body)).map _

end Envelope

namespace FrozenTransaction

variable {f : FrozenTransaction} {key : PublicKey} {list before : List (AccountId × Signature)}
  {p : AccountId × Signature}

/-! ### All envelopes -/

theorem warns_signEach (signer : Signer) (es : List Envelope) :
    (signEach signer es).Warns fun n k => k = signer.publicKey ∧ ∃ e ∈ es, e.node.number = n ∧
      ¬ e.Accepts signer.publicKey (signer.sign e.body) := by
  induction es with
  | nil => exact Outcome.warns_ok _ _
  | cons e es ih =>
    obtain ⟨n, key, ⟨rfl, rfl, hno⟩, hres, hw⟩ | ⟨hno, hw⟩ := e.warns_signWith signer
    · refine .inl ⟨e.node.number, signer.publicKey, ⟨rfl, e, List.mem_cons_self, rfl, hno⟩, ?_, ?_⟩
      · simp only [signEach, hres]
      · simp only [signEach, hres]
        exact hw
    · -- the first body is signed, and what follows decides
      have hacc : e.Accepts signer.publicKey (signer.sign e.body) := by
        by_contra hc
        rw [Outcome.isConflict, (Envelope.signWith_error hc).1] at hno
        cases hno
      have hres := (Envelope.signWith_ok hacc).1
      refine (ih.imp ?_).congr ?_ fun key => ?_
      · rintro n k ⟨hk, x, hx, hrefused⟩
        exact ⟨hk, x, List.mem_cons_of_mem e hx, hrefused⟩
      · simp only [signEach, hres, warnings_append, hw, List.nil_append]
      · simp only [signEach, hres, Outcome.map_eq_error_iff]

theorem warns_signWith (f : FrozenTransaction) (signer : Signer) :
    (f.signWith signer).Warns fun n k => k = signer.publicKey ∧ ∃ e ∈ f.envelopes,
      e.node.number = n ∧ ¬ e.Accepts signer.publicKey (signer.sign e.body) := by
  have hlevel : ∀ n, (TransactionEvent.allSigned signer.publicKey n).toLogLine.level ≠ .warn := by
    intro n
    simp [TransactionEvent.toLogLine]
  exact ((warns_signEach signer f.envelopes).withState _).report fun _ => hlevel _

/-! ### A list of signatures -/

variable (f key list) in
/-- The list has two different signatures for a node, and what stands before the second of them can
be recorded. -/
def SelfContradicts : Prop :=
  ∃ before p after, list = before ++ p :: after ∧ f.Admits key before ∧
    ∃ s, Lists before p.1.number s ∧ s ≠ p.2

/-- No two pairs are the first that offends. -/
theorem first_offender_unique {before' after after' : List (AccountId × Signature)}
    {q : AccountId × Signature} (h : before ++ p :: after = before' ++ q :: after')
    (hb : f.Admits key before) (hp : f.Offends key before p) (hb' : f.Admits key before')
    (hq : f.Offends key before' q) : before = before' ∧ p = q := by
  obtain ⟨between, rfl, hrest⟩ | ⟨between, rfl, hrest⟩ := List.append_eq_append_iff.1 h
  all_goals
    cases between with
    | nil =>
      rw [List.nil_append, List.cons.injEq] at hrest
      simp [hrest.1]
    | cons x between =>
      rw [List.cons_append, List.cons.injEq] at hrest
      obtain ⟨rfl, -⟩ := hrest
      first
      | exact absurd hb' (not_admits_of_offends hp)
      | exact absurd hb (not_admits_of_offends hq)

theorem collect_eq_listedTwice_iff :
    f.collect key list .empty = .error .listedTwice ↔ f.SelfContradicts key list := by
  obtain ⟨hl, pending, -, hc⟩ | ⟨before, p, after, rfl, hb, hoff, r, hc, hr⟩ :=
    collect_empty_cases f key list
  · refine ⟨fun h => ?_, ?_⟩
    · rw [hc] at h
      cases h
    rintro ⟨before, p, after, rfl, -, s, hs, hne⟩
    exact absurd hl (not_admits_of_offends (.inr (.inl ⟨s, hs, hne⟩)))
  · rw [hc, Except.error.injEq]
    constructor
    · rintro rfl
      exact ⟨before, p, after, rfl, hb, hr.2⟩
    · rintro ⟨before', q, after', hsplit, hb', s, hs, hne⟩
      obtain ⟨rfl, rfl⟩ := first_offender_unique hsplit hb hoff hb' (.inr (.inl ⟨s, hs, hne⟩))
      cases r with
      | unknownNode n =>
        obtain ⟨rfl, hno⟩ := hr
        exact absurd (hb.known _ _ hs) hno
      | listedTwice => rfl
      | recorded n =>
        obtain ⟨rfl, hno, -⟩ := hr
        exact absurd hs (hno s)

instance (f : FrozenTransaction) (key : PublicKey) (list : List (AccountId × Signature)) :
    Decidable (f.SelfContradicts key list) :=
  match h : f.collect key list .empty with
  | .error .listedTwice => .isTrue (collect_eq_listedTwice_iff.1 h)
  | .error (.unknownNode _) | .error (.recorded _) | .ok _ => .isFalse fun hs => by
    rw [collect_eq_listedTwice_iff.2 hs] at h
    cases h

/-- What has been collected is recorded without a warning if it is recorded at all. -/
theorem warnings_insertEach {entries : List (EntityNumber × Signature)}
    (h : (insertEach key entries f).result = .ok ()) :
    warnings (insertEach key entries f).events = [] := by
  induction entries generalizing f with
  | nil => rfl
  | cons p rest ih =>
    simp only [insertEach] at h ⊢
    split at h
    · cases h
    · next o ho =>
      obtain ⟨i, -, hi⟩ := Option.bind_eq_some_iff.1 ho
      obtain ⟨e, -, rfl⟩ := Option.map_eq_some_iff.1 hi
      simp only [Outcome.andThen] at h ⊢
      split at h
      · cases h
      · next new hnew =>
        have hfirst := ((e.warns_insert key p.2).within _).of_no_conflict
          (Outcome.isConflict_of_ok hnew)
        simp only [warnings_append, hfirst, ih h, List.nil_append]

/-- A list that contradicts itself is refused without a warning.  Any other list that is refused for
a conflict has a signature for an envelope that holds another one, and this is warned of. -/
theorem addToAll_contradicts_or_warns (f : FrozenTransaction) (key : PublicKey)
    (list : List (AccountId × Signature)) :
    (f.SelfContradicts key list ∧ (f.addToAll key list).result = .error (.signatureConflict key) ∧
      (f.addToAll key list).events = []) ∨
    (¬ f.SelfContradicts key list ∧ (f.addToAll key list).Warns fun n k => k = key ∧
      ∃ e ∈ f.envelopes, e.node.number = n ∧ ∃ s, Lists list n s ∧ ¬ e.Accepts key s) := by
  rw [← collect_eq_listedTwice_iff]
  obtain ⟨hl, pending, hp, hc⟩ | ⟨before, p, after, rfl, -, -, r, hc, hr⟩ :=
    collect_empty_cases f key list
  · obtain ⟨hok, -⟩ := insertEach_collected hp hl
    refine .inr ⟨by simp [hc], .inr ?_⟩
    simp only [addToAll, hc]
    exact ⟨by rw [Outcome.isConflict, hok], warnings_insertEach hok⟩
  · cases r with
    | unknownNode n =>
      refine .inr ⟨by simp [hc], .inr ?_⟩
      simp only [addToAll, hc]
      exact ⟨rfl, rfl⟩
    | listedTwice =>
      refine .inl ⟨hc, ?_⟩
      simp only [addToAll, hc]
      exact ⟨rfl, rfl⟩
    | recorded n =>
      obtain ⟨rfl, -, r, ⟨e, he, hn, hr⟩, hne⟩ := hr
      refine .inr ⟨by simp [hc], .inl ⟨p.1.number, key, ⟨rfl, e, he, hn, p.2, ?_, ?_⟩, ?_⟩⟩
      · exact ⟨p, by simp, rfl, rfl⟩
      · exact fun hacc => hne (hacc r hr)
      · simp only [addToAll, hc]
        exact ⟨rfl, rfl⟩

end FrozenTransaction

/-! ### Calls on a frozen transaction -/

namespace Transaction

variable {B : Type} {f : FrozenTransaction}

namespace Call

/-- The call offers this signature under this key for an envelope of the frozen transaction. -/
def Offers (f : FrozenTransaction) (e : Envelope) (key : PublicKey) (s : Signature) : Call B → Prop
  | .signSingle signer | .signAll signer => key = signer.publicKey ∧ s = signer.sign e.body
  | .signAt i signer =>
    f.envelopes[i]? = some e ∧ key = signer.publicKey ∧ s = signer.sign e.body
  | .addSignature k r => key = k ∧ s = r
  | .insertAt i k r => f.envelopes[i]? = some e ∧ key = k ∧ s = r
  | .addToAll k list => key = k ∧ FrozenTransaction.Lists list e.node.number s
  | .editBody _ | .setNodes _ | .freeze | .freezeWith _ => False

/-- The envelope for the node does not accept a signature that the call offers for it. -/
def RefusedAt (c : Call B) (f : FrozenTransaction) (n : EntityNumber) (key : PublicKey) : Prop :=
  ∃ e ∈ f.envelopes, e.node.number = n ∧ ∃ s, c.Offers f e key s ∧ ¬ e.Accepts key s

/-- The call records a list that contradicts itself. -/
def ContradictsItself (f : FrozenTransaction) : Call B → Prop
  | .addToAll key list => f.SelfContradicts key list
  | _ => False

instance (f : FrozenTransaction) : (c : Call B) → Decidable (c.ContradictsItself f)
  | .addToAll key list => inferInstanceAs (Decidable (f.SelfContradicts key list))
  | .editBody _ | .setNodes _ | .freeze | .freezeWith _ | .signSingle _ | .addSignature _ _
  | .signAll _ | .insertAt _ _ _ | .signAt _ _ => .isFalse id

end Call

variable {t : Transaction B} {α : Type} {Refused : EntityNumber → PublicKey → Prop}

theorem warns_whenFrozen (h : t.frozen = some f)
    {op : FrozenTransaction → Option (Outcome FrozenTransaction α)}
    (hop : ∀ o, op f = some o → o.Warns Refused) : (t.whenFrozen op).Warns Refused := by
  unfold whenFrozen
  rw [h, Option.bind_some]
  cases ho : op f with
  | none => exact Outcome.warns_ok _ _
  | some o => exact ((hop o ho).within _).map _

theorem warns_onOnly {op : Envelope → Outcome Signatures α} (t : Transaction B)
    (hop : ∀ e, f.envelopes = [e] → (op e).Warns Refused) : (onOnly op f t).Warns Refused := by
  by_cases hn : f.envelopes.length = 1
  · obtain ⟨e, he⟩ := List.length_eq_one_iff.1 hn
    obtain ⟨g, -, ho⟩ := onOnly_of_single op t he
    rw [ho]
    exact (hop e he).withState _
  · rw [onOnly_of_length_ne op t hn]
    exact .inr ⟨rfl, rfl⟩

/-- What is refused at an envelope of the transaction is what the call offers for it. -/
theorem Call.refusedAt_of_mem {c : Call B} {e : Envelope} (he : e ∈ f.envelopes) {key : PublicKey}
    {s : Signature} (hoffers : c.Offers f e key s) :
    ∀ n k, n = e.node.number ∧ k = key ∧ ¬ e.Accepts key s → c.RefusedAt f n k := by
  rintro _ _ ⟨rfl, rfl, hno⟩
  exact ⟨e, he, rfl, s, hoffers, hno⟩

theorem warns_at? {op : Envelope → Outcome Signatures α} {i : ℕ}
    (hop : ∀ e, f.envelopes[i]? = some e → (op e).Warns Refused)
    {o : Outcome FrozenTransaction α} (h : f.at? i op = some o) : o.Warns Refused := by
  obtain ⟨e, he, rfl⟩ := Option.map_eq_some_iff.1 h
  exact (hop e he).within _

variable [TransactionBody B]

/-- **One call** on a frozen transaction records a list that contradicts itself, and is refused
without a warning; or it warns of a conflict if and only if it ends in one. -/
theorem perform_contradicts_or_warns (h : t.frozen = some f) (c : Call B) :
    (c.ContradictsItself f ∧ (t.perform c).isConflict = true ∧
      warnings (t.perform c).events = []) ∨
    (¬ c.ContradictsItself f ∧ (t.perform c).Warns (c.RefusedAt f)) := by
  have hmem : ∀ {i : ℕ} {e : Envelope}, f.envelopes[i]? = some e → e ∈ f.envelopes :=
    List.mem_of_getElem?
  have honly : ∀ {e : Envelope}, f.envelopes = [e] → e ∈ f.envelopes := fun he => by simp [he]
  cases c with
  | editBody edit =>
    rw [perform, editBody, editWith, h]
    exact .inr ⟨id, .inr ⟨rfl, rfl⟩⟩
  | setNodes nodes =>
    rw [perform, setNodes, editWith, h]
    exact .inr ⟨id, .inr ⟨rfl, rfl⟩⟩
  | freeze =>
    rw [perform, freeze, freezeWith_of_frozen h]
    exact .inr ⟨id, .inr ⟨rfl, rfl⟩⟩
  | freezeWith offered =>
    rw [perform, freezeWith_of_frozen h]
    exact .inr ⟨id, .inr ⟨rfl, rfl⟩⟩
  | signSingle signer =>
    rw [perform, signSingle, onSingle_of_frozen _ h]
    refine .inr ⟨id, (warns_onOnly t fun e he => ?_).map _⟩
    refine ((e.warns_signWith signer).imp ?_).report fun _ => by simp [TransactionEvent.toLogLine]
    exact Call.refusedAt_of_mem (c := .signSingle signer) (honly he) ⟨rfl, rfl⟩
  | addSignature key s =>
    rw [perform, addSignature, onSingle_of_frozen _ h]
    refine .inr ⟨id, warns_onOnly t fun e he => ?_⟩
    refine ((e.warns_insert key s).imp ?_).map _
    exact Call.refusedAt_of_mem (c := .addSignature key s) (honly he) ⟨rfl, rfl⟩
  | signAll signer =>
    refine .inr ⟨id, warns_whenFrozen h fun o ho => ?_⟩
    obtain rfl := Option.some.inj ho
    refine (FrozenTransaction.warns_signWith f signer).imp ?_
    rintro n k ⟨rfl, e, he, hn, hno⟩
    exact ⟨e, he, hn, _, ⟨rfl, rfl⟩, hno⟩
  | addToAll key list =>
    have hcall : t.perform (.addToAll key list) =
        ((f.addToAll key list).within fun f => { t with frozen := some f }).map fun _ => () := by
      rw [perform, whenFrozen, h]
      rfl
    rw [hcall]
    obtain ⟨hself, hres, hevents⟩ | ⟨hself, hwarns⟩ := f.addToAll_contradicts_or_warns key list
    · refine .inl ⟨hself, Outcome.isConflict_iff.2 ⟨key, Outcome.map_eq_error_iff.2 hres⟩, ?_⟩
      exact congrArg warnings hevents
    · refine .inr ⟨hself, ((hwarns.imp ?_).within _).map _⟩
      rintro n k ⟨rfl, e, he, hn, s, hs, hno⟩
      exact ⟨e, he, hn, s, ⟨rfl, hn ▸ hs⟩, hno⟩
  | insertAt i key s =>
    refine .inr ⟨id, warns_whenFrozen h fun o ho => warns_at? (fun e he => ?_) ho⟩
    exact (e.warns_insert key s).imp (Call.refusedAt_of_mem (hmem he) ⟨he, rfl, rfl⟩)
  | signAt i signer =>
    refine .inr ⟨id, warns_whenFrozen h fun o ho => warns_at? (fun e he => ?_) ho⟩
    exact (e.warns_signWith signer).imp (Call.refusedAt_of_mem (hmem he) ⟨he, rfl, rfl⟩)

/-- **A run** warns of as many conflicts as it has, less those of lists that contradict
themselves. -/
theorem length_warnings_journal (h : t.frozen = some f) (calls : List (Call B)) :
    (warnings (t.journal calls)).length +
        (t.steps calls).countP (fun s => s.1.frozen.any fun f => s.2.ContradictsItself f) =
      (t.steps calls).countP fun s => (s.1.perform s.2).isConflict := by
  induction calls generalizing t f with
  | nil => rfl
  | cons c calls ih =>
    obtain ⟨g, hg, -⟩ := perform_of_frozen h c
    have hrest := ih (t := (t.perform c).state) (f := g) (by rw [hg])
    rw [journal_cons, warnings_append, List.length_append, steps, List.countP_cons,
      List.countP_cons]
    simp only [h, Option.any_some, decide_eq_true_eq]
    obtain ⟨hself, hres, hw⟩ | ⟨hno, ⟨n, key, -, hres, hw⟩ | ⟨hquiet, hw⟩⟩ :=
      perform_contradicts_or_warns h c
    · simp only [hself, hres, hw, if_true, List.length_nil]
      omega
    · have hconflict := Outcome.isConflict_iff.2 ⟨key, hres⟩
      simp only [hno, hconflict, hw, if_true, if_false, List.length_singleton]
      omega
    · simp only [hno, hquiet, hw, if_false, List.length_nil, Bool.false_eq_true]
      omega

/-- **Conflicts are warned of, with one exception.**  A call on a frozen transaction that ends in a
conflict reports one warning, of a node and a key under which the envelope for the node holds
another signature than the call offers for it; unless the call records a list in which two different
signatures for one node stand before anything else that offends, which is refused as a conflict
without a warning.  A call that does not end in a conflict reports no warning.  So along a run the
warnings are as many as the conflicts, less those of lists that contradict themselves. -/
theorem conflicts_warned (h : t.frozen = some f) :
    (∀ c : Call B, c.ContradictsItself f →
      (t.perform c).isConflict = true ∧ warnings (t.perform c).events = []) ∧
    (∀ (c : Call B) key, ¬ c.ContradictsItself f →
      (t.perform c).result = .error (.signatureConflict key) →
      ∃ n, c.RefusedAt f n key ∧ warnings (t.perform c).events = [conflictWarning n key]) ∧
    (∀ c : Call B, (t.perform c).isConflict = false → warnings (t.perform c).events = []) ∧
    ∀ calls : List (Call B), (warnings (t.journal calls)).length +
        (t.steps calls).countP (fun s => s.1.frozen.any fun f => s.2.ContradictsItself f) =
      (t.steps calls).countP fun s => (s.1.perform s.2).isConflict := by
  refine ⟨?_, ?_, ?_, length_warnings_journal h⟩
  · intro c hself
    obtain ⟨-, hres, hw⟩ | ⟨hno, -⟩ := perform_contradicts_or_warns h c
    · exact ⟨hres, hw⟩
    · exact absurd hself hno
  · intro c key hno hres
    obtain ⟨hself, -⟩ | ⟨-, hwarns⟩ := perform_contradicts_or_warns h c
    · exact absurd hself hno
    · exact hwarns.of_conflict hres
  · intro c hquiet
    obtain ⟨-, -, hw⟩ | ⟨-, hwarns⟩ := perform_contradicts_or_warns h c
    · exact hw
    · exact hwarns.of_no_conflict hquiet

/-- A transaction that is frozen for two nodes. -/
def Memo.prepared : Transaction Memo := { body := ⟨[7]⟩, frozen := some Memo.frozenForTwo }

/-- A signature for the first of the nodes. -/
def Memo.claimed (n : UInt8) : AccountId × Signature := (.ofNumbers 0 0 3, ⟨.replicate 64 n⟩)

/-- Two signatures for one node under one key: in two lists, and then in a single one. -/
def Memo.contesting : List (Call Memo) :=
  [.addToAll ⟨.replicate 32 5⟩ [claimed 1], .addToAll ⟨.replicate 32 5⟩ [claimed 2],
    .addToAll ⟨.replicate 32 5⟩ [claimed 1, claimed 2]]

/-- There are two conflicts, and one of them is warned of. -/
theorem conflicts_warned_memo : Memo.prepared.frozen = some Memo.frozenForTwo ∧
    (warnings (Memo.prepared.journal Memo.contesting)).length + 1 = 2 :=
  ⟨rfl, (conflicts_warned (t := Memo.prepared) rfl).2.2.2 Memo.contesting⟩

/-- The list with both signatures is refused, and nothing is logged. -/
theorem listed_twice_not_warned :
    (Memo.prepared.perform (.addToAll ⟨.replicate 32 5⟩ [Memo.claimed 1, Memo.claimed 2])).result =
      .error (.signatureConflict ⟨.replicate 32 5⟩) ∧
    warnings (Memo.prepared.perform
      (.addToAll ⟨.replicate 32 5⟩ [Memo.claimed 1, Memo.claimed 2])).events = [] :=
  ⟨rfl, rfl⟩

end Transaction

end LedgerKit
