import LedgerKit.Proofs.Envelope
import Mathlib.Data.List.Induction
import Mathlib.Logic.Equiv.Defs
import Mathlib.Order.Fin.Basic
import Mathlib.Order.MinMax

/-!
# The first signature under a key stays

Signatures are recorded one after another in an envelope that had none.  What is found under a key
is the signature of the first call that named it (`Envelope.get?_insertAll`), so every answer is
decided by that call: it was the first itself, it repeats the first, or it contradicts the first.

* `Envelope.answer_iff` : the three answers, in terms of the calls before.
* `Reorders.isFirst_iff` : a reordering that keeps the calls under each key in their order moves the
  first call under a key to the first call under that key.
* `Envelope.first_writer_wins` : the result.
-/

namespace LedgerKit

/-- A call that records a signature under a key. -/
abbrev Recording := PublicKey × Signature

/-- The call at this place is the first under the key. -/
def IsFirst (calls : List Recording) (key : PublicKey) (i : Fin calls.length) : Prop :=
  calls[i].1 = key ∧ ∀ j < i, calls[j].1 ≠ key

/-- The calls of the second list are those of the first in another order, in which the calls under
one key follow each other as before. -/
structure Reorders {calls calls' : List Recording} (σ : Fin calls.length ≃ Fin calls'.length) :
    Prop where
  /-- A call is the same at its new place. -/
  same : ∀ i, calls'[σ i] = calls[i]
  /-- Calls under one key keep their order. -/
  keeps : ∀ i j, i < j → calls[i].1 = calls[j].1 → σ i < σ j

namespace Reorders

variable {calls calls' : List Recording} {σ : Fin calls.length ≃ Fin calls'.length}

/-- Of two calls under one key, it is the same one that comes first. -/
theorem lt_iff (h : Reorders σ) {i j : Fin calls.length} (hkey : calls[i].1 = calls[j].1) :
    σ i < σ j ↔ i < j := by
  refine ⟨fun hlt => ?_, fun hlt => h.keeps i j hlt hkey⟩
  rcases lt_trichotomy i j with hij | rfl | hji
  · exact hij
  · exact absurd hlt (lt_irrefl _)
  · exact absurd hlt (h.keeps j i hji hkey.symm).asymm

theorem isFirst_iff (h : Reorders σ) {key : PublicKey} {i : Fin calls.length} :
    IsFirst calls' key (σ i) ↔ IsFirst calls key i := by
  have hsame : ∀ j, calls'[σ j].1 = calls[j].1 := fun j => congrArg Prod.fst (h.same j)
  constructor
  · rintro ⟨hi, hbefore⟩
    rw [hsame] at hi
    refine ⟨hi, fun j hji hj => ?_⟩
    exact hbefore (σ j) ((h.lt_iff (hj.trans hi.symm)).2 hji) ((hsame j).trans hj)
  · rintro ⟨hi, hbefore⟩
    refine ⟨(hsame i).trans hi, fun j' hji hj => ?_⟩
    -- a call before it under the key would come before it in the first list too
    obtain ⟨j, rfl⟩ := σ.surjective j'
    rw [hsame] at hj
    exact hbefore j ((h.lt_iff (hj.trans hi.symm)).1 hji) hj

end Reorders

namespace Envelope

/-- The envelope after some signatures were recorded in turn. -/
def insertAll (e : Envelope) (calls : List Recording) : Envelope :=
  calls.foldl (fun e c => e.withSignatures (e.insert c.1 c.2).state) e

/-- The answer to the call at a place, which is made after those before it. -/
def answer (e : Envelope) (calls : List Recording) (i : Fin calls.length) :
    Except TransactionError Bool :=
  ((e.insertAll (calls.take i)).insert calls[i].1 calls[i].2).result

variable (node : AccountId) (body : Bytes) (calls : List Recording)

theorem insertAll_snoc (e : Envelope) (calls : List Recording) (c : Recording) :
    e.insertAll (calls ++ [c]) =
      (e.insertAll calls).withSignatures ((e.insertAll calls).insert c.1 c.2).state :=
  List.foldl_append

theorem slot_insertAll (e : Envelope) (calls : List Recording) :
    (e.insertAll calls).slot = e.slot := by
  induction calls using List.reverseRecOn with
  | nil => rfl
  | append_singleton calls c ih => rw [insertAll_snoc, slot_withSignatures, ih]

/-- What is recorded after a call was recorded before it, or else it is that of the call. -/
theorem get?_insert (e : Envelope) (c : Recording) (key : PublicKey) :
    (e.insert c.1 c.2).state.get? key =
      (e.signatures.get? key).or (if c.1 = key then some c.2 else none) := by
  obtain ⟨hn, hi⟩ | ⟨hs, hi⟩ | ⟨r, hr, -, hi⟩ := insert_cases e c.1 c.2
  · by_cases hk : c.1 = key
    · subst hk
      simp [hi, hn]
    · simp [hi, SortedMap.get?_insert_of_ne _ _ (Ne.symm hk), hk]
  · by_cases hk : c.1 = key
    · subst hk
      simp [hi, hs]
    · simp [hi, hk]
  · by_cases hk : c.1 = key
    · subst hk
      simp [hi, hr]
    · simp [hi, hk]

/-- What is found under a key is the signature of the first call under it. -/
theorem get?_insertAll (key : PublicKey) :
    ((⟨node, body, .empty⟩ : Envelope).insertAll calls).signatures.get? key =
      (calls.find? fun c => c.1 = key).map Prod.snd := by
  induction calls using List.reverseRecOn with
  | nil => rfl
  | append_singleton calls c ih =>
    rw [insertAll_snoc, withSignatures, get?_insert, ih, List.find?_append]
    cases calls.find? fun c => c.1 = key with
    | some first => rfl
    | none => by_cases hk : c.1 = key <;> simp [hk]

/-- What is found after some of the calls is the signature of the first call, if that was one of
them. -/
theorem get?_insertAll_take_eq_some_iff (key : PublicKey) (s : Signature) (n : ℕ) :
    ((⟨node, body, .empty⟩ : Envelope).insertAll (calls.take n)).signatures.get? key = some s ↔
      ∃ i, i.1 < n ∧ IsFirst calls key i ∧ calls[i].2 = s := by
  rw [get?_insertAll, Option.map_eq_some_iff]
  constructor
  · rintro ⟨c, hc, rfl⟩
    obtain ⟨hkey, i, hi, rfl, hbefore⟩ := List.find?_eq_some_iff_getElem.1 hc
    rw [List.length_take, lt_min_iff] at hi
    refine ⟨⟨i, hi.2⟩, hi.1, ⟨by simpa using hkey, fun j hj => ?_⟩, by simp⟩
    simpa using hbefore j hj
  · rintro ⟨i, hi, ⟨hkey, hbefore⟩, rfl⟩
    have hlength : i.1 < (calls.take n).length := by
      rw [List.length_take]
      exact lt_min hi i.2
    refine ⟨calls[i], List.find?_eq_some_iff_getElem.2
      ⟨by simpa using hkey, i.1, hlength, by simp, ?_⟩, rfl⟩
    intro j hj
    simpa using hbefore ⟨j, lt_trans hj i.2⟩ hj

theorem get?_insertAll_eq_some_iff {key : PublicKey} {s : Signature} :
    ((⟨node, body, .empty⟩ : Envelope).insertAll calls).signatures.get? key = some s ↔
      ∃ i, IsFirst calls key i ∧ calls[i].2 = s := by
  have hall := get?_insertAll_take_eq_some_iff node body calls key s calls.length
  rw [List.take_length] at hall
  rw [hall]
  simp

theorem get?_insertAll_take_eq_none_iff {key : PublicKey} (i : Fin calls.length) :
    ((⟨node, body, .empty⟩ : Envelope).insertAll (calls.take i)).signatures.get? key = none ↔
      ∀ j < i, calls[j].1 ≠ key := by
  rw [get?_insertAll, Option.map_eq_none_iff, List.find?_eq_none]
  constructor
  · intro h j hj
    have hmem : calls[j] ∈ calls.take i :=
      List.mem_take_iff_getElem.2 ⟨j, lt_min hj j.2, rfl⟩
    simpa using h _ hmem
  · intro h c hc
    obtain ⟨j, hj, rfl⟩ := List.mem_take_iff_getElem.1 hc
    rw [lt_min_iff] at hj
    simpa using h ⟨j, hj.2⟩ hj.1

/-! ### The answers -/

/-- The answer to recording a signature says what was found under its key. -/
theorem result_insert_iff (e : Envelope) (key : PublicKey) (s : Signature) :
    ((e.insert key s).result = .ok true ↔ e.signatures.get? key = none) ∧
    ((e.insert key s).result = .ok false ↔ e.signatures.get? key = some s) ∧
    ((e.insert key s).result = .error (.signatureConflict key) ↔
      ∃ r, e.signatures.get? key = some r ∧ r ≠ s) := by
  obtain ⟨hn, hi⟩ | ⟨hs, hi⟩ | ⟨r, hr, hne, hi⟩ := insert_cases e key s
  · simp [hi, hn]
  · simp [hi, hs]
  · simp [hi, hr, hne]

/-- A call is answered according to the first call under its key. -/
theorem answer_iff (i : Fin calls.length) :
    (answer ⟨node, body, .empty⟩ calls i = .ok true ↔ ∀ j < i, calls[j].1 ≠ calls[i].1) ∧
    (answer ⟨node, body, .empty⟩ calls i = .ok false ↔
      ∃ j < i, IsFirst calls calls[i].1 j ∧ calls[j].2 = calls[i].2) ∧
    (answer ⟨node, body, .empty⟩ calls i = .error (.signatureConflict calls[i].1) ↔
      ∃ j < i, IsFirst calls calls[i].1 j ∧ calls[j].2 ≠ calls[i].2) := by
  obtain ⟨hnew, hsame, hother⟩ := result_insert_iff
    ((⟨node, body, .empty⟩ : Envelope).insertAll (calls.take i)) calls[i].1 calls[i].2
  refine ⟨?_, ?_, ?_⟩
  · rw [answer, hnew, get?_insertAll_take_eq_none_iff]
  · rw [answer, hsame, get?_insertAll_take_eq_some_iff]
    rfl
  · rw [answer, hother]
    simp only [get?_insertAll_take_eq_some_iff]
    constructor
    · rintro ⟨r, ⟨j, hj, hfirst, rfl⟩, hne⟩
      exact ⟨j, hj, hfirst, hne⟩
    · rintro ⟨j, hj, hfirst, hne⟩
      exact ⟨_, ⟨j, hj, hfirst, rfl⟩, hne⟩

/-- There is no fourth answer. -/
theorem answer_cases (e : Envelope) (i : Fin calls.length) :
    e.answer calls i = .ok true ∨ e.answer calls i = .ok false ∨
      e.answer calls i = .error (.signatureConflict calls[i].1) := by
  unfold answer
  obtain ⟨-, hi⟩ | ⟨-, hi⟩ | ⟨-, -, -, hi⟩ :=
    insert_cases (e.insertAll (calls.take i)) calls[i].1 calls[i].2
  · exact .inl (by rw [hi])
  · exact .inr (.inl (by rw [hi]))
  · exact .inr (.inr (by rw [hi]))

end Envelope

/-! ### Reordering -/

variable {calls calls' : List Recording} {σ : Fin calls.length ≃ Fin calls'.length}

namespace Reorders

/-- What is said of the first call under the key of a call holds after reordering as before. -/
theorem exists_isFirst_iff (h : Reorders σ) (i : Fin calls.length) {P : Signature → Prop} :
    (∃ j < σ i, IsFirst calls' calls[i].1 j ∧ P calls'[j].2) ↔
      ∃ j < i, IsFirst calls calls[i].1 j ∧ P calls[j].2 := by
  constructor
  · rintro ⟨j', hj, hfirst, hP⟩
    obtain ⟨j, rfl⟩ := σ.surjective j'
    rw [h.isFirst_iff] at hfirst
    rw [h.same] at hP
    exact ⟨j, (h.lt_iff hfirst.1).1 hj, hfirst, hP⟩
  · rintro ⟨j, hj, hfirst, hP⟩
    exact ⟨σ j, (h.lt_iff hfirst.1).2 hj, h.isFirst_iff.2 hfirst, by rwa [h.same]⟩

/-- A call is answered at its new place as it was at the old one. -/
theorem answer_eq (h : Reorders σ) (node : AccountId) (body : Bytes) (i : Fin calls.length) :
    Envelope.answer ⟨node, body, .empty⟩ calls' (σ i) =
      Envelope.answer ⟨node, body, .empty⟩ calls i := by
  obtain ⟨hnew, hsame, hother⟩ := Envelope.answer_iff node body calls i
  obtain ⟨hnew', hsame', hother'⟩ := Envelope.answer_iff node body calls' (σ i)
  rw [h.same] at hnew' hsame' hother'
  obtain ha | ha | ha := Envelope.answer_cases calls ⟨node, body, .empty⟩ i
  · rw [ha, hnew']
    intro j' hj hkey
    obtain ⟨j, rfl⟩ := σ.surjective j'
    rw [h.same] at hkey
    exact hnew.1 ha j ((h.lt_iff hkey).1 hj) hkey
  · rw [ha, hsame', h.exists_isFirst_iff i (P := (· = calls[i].2))]
    exact hsame.1 ha
  · rw [ha, hother', h.exists_isFirst_iff i (P := (· ≠ calls[i].2))]
    exact hother.1 ha

/-- The same signatures are recorded in the end. -/
theorem insertAll_eq (h : Reorders σ) (node : AccountId) (body : Bytes) :
    (⟨node, body, .empty⟩ : Envelope).insertAll calls' =
      (⟨node, body, .empty⟩ : Envelope).insertAll calls := by
  refine Envelope.eq_of_gets ?_ fun key => Option.ext fun s => ?_
  · rw [Envelope.slot_insertAll, Envelope.slot_insertAll]
  · rw [Envelope.get?_insertAll_eq_some_iff, Envelope.get?_insertAll_eq_some_iff]
    constructor
    · rintro ⟨i', hfirst, hs⟩
      obtain ⟨i, rfl⟩ := σ.surjective i'
      rw [h.same] at hs
      exact ⟨i, h.isFirst_iff.1 hfirst, hs⟩
    · rintro ⟨i, hfirst, hs⟩
      exact ⟨σ i, h.isFirst_iff.2 hfirst, by rwa [h.same]⟩

end Reorders

/-- **The first signature under a key stays.**  Signatures are recorded one after another in an
envelope that had none.  A call under a key that no earlier call named records its signature; after
that the signature can be repeated, and any other under the key is refused.  In the end each key
that was named has the signature of its first call, and there is nothing else.  Hence reordering the
calls, without changing the order of those under one key, changes neither an answer nor what is
recorded. -/
theorem Envelope.first_writer_wins (node : AccountId) (body : Bytes) (calls : List Recording) :
    (∀ i, Envelope.answer ⟨node, body, .empty⟩ calls i = .ok true ↔
      ∀ j < i, calls[j].1 ≠ calls[i].1) ∧
    (∀ i, Envelope.answer ⟨node, body, .empty⟩ calls i = .ok false ↔
      ∃ j < i, IsFirst calls calls[i].1 j ∧ calls[j].2 = calls[i].2) ∧
    (∀ i, Envelope.answer ⟨node, body, .empty⟩ calls i =
        .error (.signatureConflict calls[i].1) ↔
      ∃ j < i, IsFirst calls calls[i].1 j ∧ calls[j].2 ≠ calls[i].2) ∧
    (∀ key s, ((⟨node, body, .empty⟩ : Envelope).insertAll calls).signatures.get? key = some s ↔
      ∃ i, IsFirst calls key i ∧ calls[i].2 = s) ∧
    ∀ (calls' : List Recording) (σ : Fin calls.length ≃ Fin calls'.length), Reorders σ →
      (∀ i, Envelope.answer ⟨node, body, .empty⟩ calls' (σ i) =
        Envelope.answer ⟨node, body, .empty⟩ calls i) ∧
      (⟨node, body, .empty⟩ : Envelope).insertAll calls' =
        (⟨node, body, .empty⟩ : Envelope).insertAll calls := by
  refine ⟨fun i => (Envelope.answer_iff node body calls i).1,
    fun i => (Envelope.answer_iff node body calls i).2.1,
    fun i => (Envelope.answer_iff node body calls i).2.2,
    fun key s => Envelope.get?_insertAll_eq_some_iff node body calls, ?_⟩
  intro calls' σ h
  exact ⟨h.answer_eq node body, h.insertAll_eq node body⟩

end LedgerKit
