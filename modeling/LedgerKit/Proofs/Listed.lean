import LedgerKit.Proofs.Frozen

/-!
# Recording a list of signatures

`FrozenTransaction.addToAll` takes a list of signatures of one key, each with a node.  It first goes
through the list and collects the signatures by node; then it records what it has collected.

* `Collects` : the invariant of the first phase.  What is collected is what the pairs read so far
  list, for each node; so it does not matter in which order they came or how often.
* `collect_cases` : the first phase ends with everything collected, or at the first pair that
  offends.
* `insertEach_spec` : the second phase records everything, since no node occurs twice in it.
* `addToAll_cases` : both together.
-/

namespace LedgerKit

namespace FrozenTransaction

/-! ### Lists and what offends in them -/

/-- The list has this signature for the node. -/
def Lists (list : List (AccountId × Signature)) (n : EntityNumber) (s : Signature) : Prop :=
  ∃ p ∈ list, p.1.number = n ∧ p.2 = s

variable (f : FrozenTransaction) (key : PublicKey)

/-- The node is a candidate: there is an envelope for it. -/
def HasNode (n : EntityNumber) : Prop := ∃ e ∈ f.envelopes, e.node.number = n

instance (n : EntityNumber) : Decidable (f.HasNode n) :=
  inferInstanceAs (Decidable (∃ e ∈ f.envelopes, e.node.number = n))

/-- The signature is recorded under the key in the envelope for the node. -/
def Records (n : EntityNumber) (s : Signature) : Prop :=
  ∃ e ∈ f.envelopes, e.node.number = n ∧ e.signatures.get? key = some s

/-- The list can be recorded under the key. -/
structure Admits (list : List (AccountId × Signature)) : Prop where
  /-- Every node of the list is a candidate. -/
  known : ∀ n s, Lists list n s → f.HasNode n
  /-- One signature is listed for a node. -/
  consistent : ∀ n s r, Lists list n s → Lists list n r → s = r
  /-- No other signature is recorded for a node of the list. -/
  accepted : ∀ n s r, Lists list n s → f.Records key n r → r = s

/-- The pair cannot be recorded with those before it: its node is no candidate, or another signature
was listed or is recorded for it. -/
def Offends (before : List (AccountId × Signature)) (p : AccountId × Signature) : Prop :=
  ¬ f.HasNode p.1.number ∨ (∃ s, Lists before p.1.number s ∧ s ≠ p.2) ∨
    ∃ s, f.Records key p.1.number s ∧ s ≠ p.2

/-- The error for a pair that offends. -/
def offence (p : AccountId × Signature) : TransactionError :=
  if f.HasNode p.1.number then .signatureConflict key else .unknownNode p.1.number

/-- The refusal gives the reason why the pair offends.  That it differs from an earlier pair is
noticed before it is compared with what is recorded. -/
def Refusal.Blames (before : List (AccountId × Signature)) (p : AccountId × Signature) :
    Refusal → Prop
  | .unknownNode n => n = p.1.number ∧ ¬ f.HasNode n
  | .listedTwice => f.HasNode p.1.number ∧ ∃ s, Lists before p.1.number s ∧ s ≠ p.2
  | .recorded n => n = p.1.number ∧ (∀ s, ¬ Lists before n s) ∧ ∃ s, f.Records key n s ∧ s ≠ p.2

variable {f key} {list before : List (AccountId × Signature)} {p : AccountId × Signature}

theorem Refusal.Blames.error_eq {r : Refusal} (h : r.Blames f key before p) :
    r.error key = f.offence key p := by
  cases r with
  | unknownNode n =>
    obtain ⟨rfl, hn⟩ := h
    exact (if_neg hn).symm
  | listedTwice => exact (if_pos h.1).symm
  | recorded n =>
    obtain ⟨rfl, -, s, ⟨e, he, hn, -⟩, -⟩ := h
    exact (if_pos ⟨e, he, hn⟩).symm

theorem lists_snoc {n : EntityNumber} {s : Signature} :
    Lists (before ++ [p]) n s ↔ Lists before n s ∨ p.1.number = n ∧ p.2 = s := by
  simp [Lists, or_and_right, exists_or]

theorem admits_nil : f.Admits key [] := by
  have hempty : ∀ n s, ¬ Lists [] n s := by
    rintro n s ⟨p, hp, -⟩
    cases hp
  exact ⟨fun n s h => absurd h (hempty n s), fun n s _ h => absurd h (hempty n s),
    fun n s _ h => absurd h (hempty n s)⟩

/-- Whether a list can be recorded does not depend on the order or the number of its pairs. -/
theorem Admits.congr {list' : List (AccountId × Signature)} (h : f.Admits key list)
    (hl : ∀ n s, Lists list n s ↔ Lists list' n s) : f.Admits key list' :=
  ⟨fun n s hs => h.known n s ((hl n s).2 hs),
    fun n s r hs hr => h.consistent n s r ((hl n s).2 hs) ((hl n r).2 hr),
    fun n s r hs => h.accepted n s r ((hl n s).2 hs)⟩

theorem admits_congr {list' : List (AccountId × Signature)}
    (hl : ∀ n s, Lists list n s ↔ Lists list' n s) : f.Admits key list ↔ f.Admits key list' :=
  ⟨fun h => h.congr hl, fun h => h.congr fun n s => (hl n s).symm⟩

theorem Admits.of_append {after : List (AccountId × Signature)} (h : f.Admits key (list ++ after)) :
    f.Admits key list := by
  have hl : ∀ n s, Lists list n s → Lists (list ++ after) n s := by
    rintro n s ⟨p, hp, hn, hs⟩
    exact ⟨p, List.mem_append_left _ hp, hn, hs⟩
  exact ⟨fun n s hs => h.known n s (hl n s hs),
    fun n s r hs hr => h.consistent n s r (hl n s hs) (hl n r hr),
    fun n s r hs => h.accepted n s r (hl n s hs)⟩

theorem admits_snoc :
    f.Admits key (before ++ [p]) ↔ f.Admits key before ∧ ¬ f.Offends key before p := by
  have hp : Lists (before ++ [p]) p.1.number p.2 := lists_snoc.2 (.inr ⟨rfl, rfl⟩)
  constructor
  · intro h
    refine ⟨h.of_append, ?_⟩
    rintro (hn | ⟨s, hs, hne⟩ | ⟨s, hs, hne⟩)
    · exact hn (h.known _ _ hp)
    · exact hne (h.consistent _ _ _ (lists_snoc.2 (.inl hs)) hp)
    · exact hne (h.accepted _ _ _ hp hs)
  · rintro ⟨h, hno⟩
    simp only [Offends, not_or, not_not, not_exists, not_and] at hno
    obtain ⟨hknown, hlisted, hrecorded⟩ := hno
    -- each signature of the longer list is one of the shorter list or that of the new pair
    refine ⟨?_, ?_, ?_⟩
    · intro n s hs
      obtain hs | ⟨rfl, rfl⟩ := lists_snoc.1 hs
      · exact h.known n s hs
      · exact hknown
    · intro n s r hs hr
      obtain hs | ⟨rfl, rfl⟩ := lists_snoc.1 hs <;> obtain hr | ⟨hn, rfl⟩ := lists_snoc.1 hr
      · exact h.consistent n s r hs hr
      · subst hn; exact hlisted s hs
      · exact (hlisted r hr).symm
      · rfl
    · intro n s r hs hr
      obtain hs | ⟨rfl, rfl⟩ := lists_snoc.1 hs
      · exact h.accepted n s r hs hr
      · exact hrecorded r hr

/-! ### The first phase -/

theorem envelope?_eq_none_iff {n : EntityNumber} : f.envelope? n = none ↔ ¬ f.HasNode n := by
  simp [envelope?, HasNode]

theorem envelope?_eq_some {n : EntityNumber} {e : Envelope} (h : f.envelope? n = some e) :
    e ∈ f.envelopes ∧ e.node.number = n :=
  ⟨List.mem_of_find?_eq_some h, by simpa using List.find?_some h⟩

theorem records_iff {n : EntityNumber} {e : Envelope} (he : e ∈ f.envelopes)
    (hn : e.node.number = n) {s : Signature} :
    f.Records key n s ↔ e.signatures.get? key = some s := by
  constructor
  · rintro ⟨x, hx, hxn, hs⟩
    rwa [List.inj_on_of_nodup_map f.distinct he hx (hn.trans hxn.symm)]
  · exact fun hs => ⟨e, he, hn, hs⟩

/-- What has been collected is what the pairs read so far list. -/
def Collects (pending : SortedMap EntityNumber Signature)
    (before : List (AccountId × Signature)) : Prop :=
  ∀ n s, pending.get? n = some s ↔ Lists before n s

variable {pending : SortedMap EntityNumber Signature}

theorem collects_empty : Collects .empty [] := by
  intro n s
  simp [Lists]

theorem Collects.snoc (h : Collects pending before) (hp : ∀ r, ¬ Lists before p.1.number r) :
    Collects (pending.insert p.1.number p.2) (before ++ [p]) := by
  intro n s
  rw [lists_snoc]
  by_cases hn : n = p.1.number
  · subst hn
    simp [hp s]
  · rw [SortedMap.get?_insert_of_ne _ _ hn, h n s]
    simp [Ne.symm hn]

theorem Collects.snoc_of_lists (h : Collects pending before)
    (hp : Lists before p.1.number p.2) : Collects pending (before ++ [p]) := by
  intro n s
  rw [lists_snoc, h n s]
  constructor
  · exact .inl
  · rintro (hs | ⟨rfl, rfl⟩)
    · exact hs
    · exact hp

/-- Reading one more pair: it offends and is refused, or it does not and is collected. -/
theorem collect_cons (h : Collects pending before) (hb : f.Admits key before)
    (rest : List (AccountId × Signature)) :
    (f.Offends key before p ∧
      ∃ r, f.collect key (p :: rest) pending = .error r ∧ r.Blames f key before p) ∨
    (¬ f.Offends key before p ∧ ∃ pending', Collects pending' (before ++ [p]) ∧
      f.collect key (p :: rest) pending = f.collect key rest pending') := by
  obtain ⟨node, s⟩ := p
  simp only [collect]
  cases he : f.envelope? node.number with
  | none =>
    have hn := envelope?_eq_none_iff.1 he
    exact .inl ⟨.inl hn, _, rfl, rfl, hn⟩
  | some e =>
    obtain ⟨hmem, hn⟩ := envelope?_eq_some he
    have hnode : f.HasNode node.number := ⟨e, hmem, hn⟩
    cases hp : pending.get? node.number with
    | some r =>
      have hr : Lists before node.number r := (h _ _).1 hp
      by_cases hrs : r = s
      · subst hrs
        refine .inr ⟨?_, pending, h.snoc_of_lists hr, by simp⟩
        -- an equal pair has been read before, and that one did not offend
        rintro (hno | ⟨t, ht, hne⟩ | ⟨t, ht, hne⟩)
        · exact hno hnode
        · exact hne (hb.consistent _ _ _ ht hr)
        · exact hne (hb.accepted _ _ _ hr ht)
      · exact .inl ⟨.inr (.inl ⟨r, hr, hrs⟩), .listedTwice, by simp [hrs], hnode, r, hr, hrs⟩
    | none =>
      have hnew : ∀ r, ¬ Lists before node.number r := by
        intro r hr
        rw [(h _ _).2 hr] at hp
        cases hp
      by_cases ha : e.Accepts key s
      · refine .inr ⟨?_, _, h.snoc hnew, ?_⟩
        · rintro (hno | ⟨t, ht, -⟩ | ⟨t, ht, hne⟩)
          · exact hno hnode
          · exact hnew t ht
          · exact hne (ha t ((records_iff hmem hn).1 ht))
        · cases hr : e.signatures.get? key with
          | none => simp [hr]
          | some r =>
            obtain rfl := ha r hr
            simp [hr]
      · simp only [Envelope.Accepts, not_forall] at ha
        obtain ⟨r, hr, hne⟩ := ha
        have hother : ∃ t, f.Records key node.number t ∧ t ≠ s :=
          ⟨r, (records_iff hmem hn).2 hr, hne⟩
        exact .inl ⟨.inr (.inr hother), .recorded node.number, by simp [hr, hne], rfl, hnew, hother⟩

/-- The first phase collects the whole list, or it ends with the error for the first pair that
offends. -/
theorem collect_cases (h : Collects pending before) (hb : f.Admits key before)
    (list : List (AccountId × Signature)) :
    (f.Admits key (before ++ list) ∧ ∃ pending', Collects pending' (before ++ list) ∧
      f.collect key list pending = .ok pending') ∨
    ∃ mid p after, list = mid ++ p :: after ∧ f.Admits key (before ++ mid) ∧
      f.Offends key (before ++ mid) p ∧
      ∃ r, f.collect key list pending = .error r ∧ r.Blames f key (before ++ mid) p := by
  induction list generalizing before pending with
  | nil => exact .inl ⟨by simpa using hb, pending, by simpa using h, rfl⟩
  | cons p rest ih =>
    obtain ⟨hoff, hr⟩ | ⟨hno, pending', h', hc⟩ := collect_cons (p := p) h hb rest
    · exact .inr ⟨[], p, rest, rfl, by simpa using hb, by simpa using hoff, by simpa using hr⟩
    · rw [hc]
      obtain hok | ⟨mid, q, after, rfl, hmid, hq, hr⟩ := ih h' (admits_snoc.2 ⟨hb, hno⟩)
      · exact .inl (by simpa using hok)
      · exact .inr ⟨p :: mid, q, after, rfl, by simpa using hmid, by simpa using hq,
        by simpa using hr⟩

/-! ### The second phase -/

/-- The envelope has gained the listed signature for its node, and nothing else has changed. -/
def Gains (key : PublicKey) (listed : EntityNumber → Signature → Prop) (e e' : Envelope) : Prop :=
  e'.slot = e.slot ∧ ∀ k s, e'.signatures.get? k = some s ↔
    e.signatures.get? k = some s ∨ k = key ∧ listed e.node.number s

theorem Gains.congr {l₁ l₂ : EntityNumber → Signature → Prop} {a b : Envelope}
    (h : Gains key l₁ a b) (hl : ∀ n s, l₁ n s ↔ l₂ n s) : Gains key l₂ a b :=
  ⟨h.1, fun k s => (h.2 k s).trans (or_congr_right (and_congr_right fun _ => hl _ s))⟩

theorem Gains.trans {l₁ l₂ : EntityNumber → Signature → Prop} {a b c : Envelope}
    (hab : Gains key l₁ a b) (hbc : Gains key l₂ b c) :
    Gains key (fun n s => l₁ n s ∨ l₂ n s) a c := by
  refine ⟨hbc.1.trans hab.1, fun k s => ?_⟩
  have hnode : b.node = a.node := congrArg Prod.fst hab.1
  rw [hbc.2 k s, hab.2 k s, hnode, or_assoc, ← and_or_left]

variable {g : FrozenTransaction} {listed : EntityNumber → Signature → Prop}

theorem HasNode.of_gains (h : List.Forall₂ (Gains key listed) f.envelopes g.envelopes)
    {n : EntityNumber} (hn : f.HasNode n) : g.HasNode n := by
  obtain ⟨e, he, rfl⟩ := hn
  obtain ⟨e', he', hgain⟩ := exists_of_forall₂_left h he
  exact ⟨e', he', congrArg (fun s => s.1.number) hgain.1⟩

theorem Records.of_gains (h : List.Forall₂ (Gains key listed) f.envelopes g.envelopes)
    {n : EntityNumber} {s : Signature} (hs : g.Records key n s) :
    f.Records key n s ∨ listed n s := by
  obtain ⟨e', he', rfl, hs⟩ := hs
  obtain ⟨e, he, hgain⟩ := exists_of_forall₂ h he'
  have hnode : e'.node = e.node := congrArg Prod.fst hgain.1
  rw [hnode]
  obtain hs | ⟨-, hs⟩ := (hgain.2 key s).1 hs
  · exact .inl ⟨e, he, rfl, hs⟩
  · exact .inr hs

/-- What recording one signature for a node does. -/
theorem onNode_insert {n : EntityNumber} {s : Signature} (hn : f.HasNode n)
    (ha : ∀ r, f.Records key n r → r = s) :
    ∃ o new, f.onNode n (fun e => e.insert key s) = some o ∧ o.result = .ok new ∧
      List.Forall₂ (Gains key fun m r => m = n ∧ r = s) f.envelopes o.state.envelopes := by
  obtain ⟨e, he, rfl⟩ := hn
  obtain ⟨o, ho, hres, -, hes⟩ := onNode_eq_some he fun e => e.insert key s
  have hacc : e.Accepts key s := fun r hr => ha r ((records_iff he rfl).2 hr)
  obtain ⟨⟨new, hnew⟩, hget⟩ := Envelope.insert_ok hacc
  refine ⟨o, new, ho, hres.trans hnew, ?_⟩
  rw [hes, List.forall₂_map_right_iff, List.forall₂_same]
  intro x hx
  by_cases hxe : x.node.number = e.node.number
  · obtain rfl : x = e := List.inj_on_of_nodup_map f.distinct hx he hxe
    refine ⟨by simp, fun k r => ?_⟩
    simp only [if_pos, Envelope.withSignatures, hget k]
    by_cases hk : k = key
    · subst hk
      simp only [if_pos, Option.some.injEq, true_and]
      exact ⟨fun h => .inr h.symm, fun h => h.elim (fun hr => (hacc r hr).symm) Eq.symm⟩
    · simp [hk]
  · exact ⟨by simp [hxe], fun k r => by simp [hxe]⟩

theorem insertEach_cons_of_ok {n : EntityNumber} {s : Signature}
    {rest : List (EntityNumber × Signature)} {o : Outcome FrozenTransaction Bool} {new : Bool}
    (ho : f.onNode n (fun e => e.insert key s) = some o) (hres : o.result = .ok new) :
    insertEach key ((n, s) :: rest) f = ⟨(insertEach key rest o.state).result,
      (insertEach key rest o.state).state, o.events ++ (insertEach key rest o.state).events⟩ := by
  have ho : ((f.place? n).bind fun i => f.at? i fun e => e.insert key s) = some o := ho
  simp only [insertEach, ho, Outcome.andThen, hres]

/-- The second phase records every entry if each is accepted on its own and no node has two: an
entry does not touch the envelopes of the others. -/
theorem insertEach_spec {entries : List (EntityNumber × Signature)}
    (hd : (entries.map Prod.fst).Nodup) (hn : ∀ p ∈ entries, f.HasNode p.1)
    (ha : ∀ p ∈ entries, ∀ r, f.Records key p.1 r → r = p.2) :
    (insertEach key entries f).result = .ok () ∧
      List.Forall₂ (Gains key fun n s => (n, s) ∈ entries) f.envelopes
        (insertEach key entries f).state.envelopes := by
  induction entries generalizing f with
  | nil => exact ⟨rfl, List.forall₂_same.2 fun e _ => ⟨rfl, by simp⟩⟩
  | cons p rest ih =>
    obtain ⟨n, s⟩ := p
    simp only [List.map_cons, List.nodup_cons] at hd
    obtain ⟨o, new, ho, hres, hgain⟩ := onNode_insert (hn _ List.mem_cons_self)
      (ha _ List.mem_cons_self)
    have hrest := ih (f := o.state) hd.2 ?_ ?_
    · rw [insertEach_cons_of_ok ho hres]
      refine ⟨hrest.1, forall₂_comp (fun a b c hab hbc => ?_) hgain hrest.2⟩
      simpa [Gains] using hab.trans hbc
    · exact fun p hp => (hn p (List.mem_cons_of_mem _ hp)).of_gains hgain
    · intro p hp r hr
      obtain hr | ⟨rfl, -⟩ := hr.of_gains hgain
      · exact ha p (List.mem_cons_of_mem _ hp) r hr
      · exact absurd (List.mem_map_of_mem (f := Prod.fst) hp) hd.1

/-- Transactions that have gained the same from one transaction are equal. -/
theorem eq_of_gains {f₁ f₂ : FrozenTransaction}
    (h₁ : List.Forall₂ (Gains key listed) f.envelopes f₁.envelopes)
    (h₂ : List.Forall₂ (Gains key listed) f.envelopes f₂.envelopes) : f₁ = f₂ := by
  have hu : Relator.RightUnique (Gains key listed) := fun a b c hb hc =>
    Envelope.eq_of_gets (hb.1.trans hc.1.symm) fun k => Option.ext fun s =>
      (hb.2 k s).trans (hc.2 k s).symm
  exact eq_of_envelopes (List.right_unique_forall₂' hu h₁ h₂)

/-! ### Both phases -/

/-- What the first phase has collected of a whole list, the second phase records. -/
theorem insertEach_collected (h : Collects pending list) (hl : f.Admits key list) :
    (insertEach key pending.entries f).result = .ok () ∧
      List.Forall₂ (Gains key (Lists list)) f.envelopes
        (insertEach key pending.entries f).state.envelopes := by
  have hmem : ∀ n s, (n, s) ∈ pending.entries ↔ Lists list n s := fun n s =>
    pending.get?_eq_some_iff.symm.trans (h n s)
  have hins := insertEach_spec pending.nodup_keys
    (fun p hp => hl.known p.1 p.2 ((hmem _ _).1 hp))
    (fun p hp r hr => hl.accepted p.1 p.2 r ((hmem _ _).1 hp) hr)
  exact ⟨hins.1, hins.2.imp fun e e' hgain => hgain.congr hmem⟩

theorem not_admits_of_offends {after : List (AccountId × Signature)}
    (h : f.Offends key before p) : ¬ f.Admits key (before ++ p :: after) := by
  intro hl
  rw [List.append_cons] at hl
  exact (admits_snoc.1 hl.of_append).2 h

/-- Collecting starts from nothing, with no pair read. -/
theorem collect_empty_cases (f : FrozenTransaction) (key : PublicKey)
    (list : List (AccountId × Signature)) :
    (f.Admits key list ∧ ∃ pending, Collects pending list ∧
      f.collect key list .empty = .ok pending) ∨
    ∃ before p after, list = before ++ p :: after ∧ f.Admits key before ∧ f.Offends key before p ∧
      ∃ r, f.collect key list .empty = .error r ∧ r.Blames f key before p :=
  collect_cases collects_empty admits_nil list

/-- Either the whole list is recorded, or nothing is and the error is that for the first pair that
offends. -/
theorem addToAll_cases (f : FrozenTransaction) (key : PublicKey)
    (list : List (AccountId × Signature)) :
    (f.Admits key list ∧ (f.addToAll key list).result = .ok () ∧
      List.Forall₂ (Gains key (Lists list)) f.envelopes (f.addToAll key list).state.envelopes) ∨
    (¬ f.Admits key list ∧ (f.addToAll key list).state = f ∧
      ∃ before p after, list = before ++ p :: after ∧ f.Admits key before ∧
        f.Offends key before p ∧ (f.addToAll key list).result = .error (f.offence key p)) := by
  obtain ⟨hl, pending, hp, hc⟩ | ⟨before, p, after, rfl, hb, hoff, r, hc, hr⟩ :=
    collect_empty_cases f key list
  · have hres : f.addToAll key list = insertEach key pending.entries f := by rw [addToAll, hc]
    rw [hres]
    exact .inl ⟨hl, insertEach_collected hp hl⟩
  · have hres : f.addToAll key (before ++ p :: after) =
        ⟨.error (r.error key), f, r.events key⟩ := by
      rw [addToAll, hc]
    rw [hres]
    exact .inr ⟨not_admits_of_offends hoff, rfl, before, p, after, rfl, hb, hoff,
      congrArg _ hr.error_eq⟩

theorem addToAll_ok_iff : (f.addToAll key list).result = .ok () ↔ f.Admits key list := by
  obtain ⟨hl, hok, -⟩ | ⟨hl, -, _, _, _, -, -, -, herr⟩ := f.addToAll_cases key list
  · exact ⟨fun _ => hl, fun _ => hok⟩
  · refine ⟨?_, fun h => absurd h hl⟩
    intro hok
    rw [herr] at hok
    cases hok

/-- Only what is listed matters, neither the order nor the repetition of pairs. -/
theorem state_addToAll_congr {list' : List (AccountId × Signature)}
    (hl : ∀ n s, Lists list n s ↔ Lists list' n s) :
    (f.addToAll key list').state = (f.addToAll key list).state := by
  have hadm : f.Admits key list ↔ f.Admits key list' := admits_congr hl
  obtain ⟨hyes, -, hgain⟩ | ⟨hno, hstate, -⟩ := f.addToAll_cases key list <;>
    obtain ⟨hyes', -, hgain'⟩ | ⟨hno', hstate', -⟩ := f.addToAll_cases key list'
  · exact eq_of_gains (hgain'.imp fun _ _ h => h.congr fun n s => (hl n s).symm) hgain
  · exact absurd (hadm.1 hyes) hno'
  · exact absurd (hadm.2 hyes') hno
  · rw [hstate, hstate']

/-- **Recording a list is all or nothing.**  The list is recorded if and only if every node of it is
a candidate, one signature is listed for a node, and none other is recorded there.  Then each
envelope gains the signature that is listed for its node, if one is, and nothing else changes.
Otherwise nothing changes at all, and the error is that for the first pair that offends: its node is
unknown, or else there is a conflict.  Recording what was collected never fails.  Neither the order
nor the repetition of pairs plays a part. -/
theorem addToAll_all_or_nothing (f : FrozenTransaction) (key : PublicKey)
    (list : List (AccountId × Signature)) :
    ((f.addToAll key list).result = .ok () ↔ f.Admits key list) ∧
    ((f.addToAll key list).result = .ok () →
      List.Forall₂ (Gains key (Lists list)) f.envelopes (f.addToAll key list).state.envelopes) ∧
    (∀ err, (f.addToAll key list).result = .error err →
      (f.addToAll key list).state = f ∧
      ∃ before p after, list = before ++ p :: after ∧ f.Admits key before ∧
        f.Offends key before p ∧
        (¬ f.HasNode p.1.number → err = .unknownNode p.1.number) ∧
        (f.HasNode p.1.number → err = .signatureConflict key)) ∧
    (∀ pending, f.collect key list .empty = .ok pending →
      (insertEach key pending.entries f).result = .ok ()) ∧
    ∀ list', (∀ n s, Lists list n s ↔ Lists list' n s) →
      ((f.addToAll key list).result = .ok () ↔ (f.addToAll key list').result = .ok ()) ∧
      (f.addToAll key list').state = (f.addToAll key list).state := by
  refine ⟨addToAll_ok_iff, ?_, ?_, ?_, ?_⟩
  · intro hok
    obtain ⟨-, -, hgain⟩ | ⟨hl, -⟩ := f.addToAll_cases key list
    · exact hgain
    · exact absurd (addToAll_ok_iff.1 hok) hl
  · intro err herr
    obtain ⟨-, hok, -⟩ | ⟨-, hstate, before, p, after, hsplit, hb, hoff, hres⟩ :=
      f.addToAll_cases key list
    · rw [hok] at herr
      cases herr
    · obtain rfl : f.offence key p = err := Except.error.inj (hres.symm.trans herr)
      exact ⟨hstate, before, p, after, hsplit, hb, hoff, fun hn => if_neg hn, fun hn => if_pos hn⟩
  · intro pending hc
    obtain ⟨hl, pending', hp, hc'⟩ | ⟨_, _, _, -, -, -, r, hc', -⟩ :=
      collect_empty_cases f key list
    · obtain rfl : pending' = pending := Except.ok.inj (hc'.symm.trans hc)
      exact (insertEach_collected hp hl).1
    · rw [hc'] at hc
      cases hc
  · intro list' hl
    refine ⟨?_, state_addToAll_congr hl⟩
    rw [addToAll_ok_iff, addToAll_ok_iff, admits_congr hl]

end FrozenTransaction

end LedgerKit
